import ShaderReflection.Proofs.Printing.PrintedText

/-! What a scan collects from the tokens of a printed shader: exactly the declarations of the
variables, section by section, and no warning.
-/

namespace ShaderReflection.Scanner

/-- A scan between two statements: no parameter list is open and nothing is pending. -/
structure Settled (s : Scanner) : Prop where
  openLists : s.openLists = 0
  statement : s.statement = {}
  parameter : s.parameter = {}

/-- The scan with keywords added to its statement. -/
def collect (s : Scanner) (keywords : List Keyword) : Scanner :=
  { s with statement := { latestFirst := keywords.reverse ++ s.statement.latestFirst } }

variable {s : Scanner} {block : Block}

theorem collect_collect (s : Scanner) (first second : List Keyword)
    : (s.collect first).collect second = s.collect (first ++ second) := by
  simp [collect]

theorem accept_word (closed : s.openLists = 0) (word : String)
    : s.accept (.word word) = s.collect [{ word := word }] := by
  simp [accept, acceptWord, closed, collect, Statement.push]

/-- A layout is collected with its location as parameter, and the parameter slot is empty again. -/
theorem acceptAll_layoutTokens (closed : s.openLists = 0) (empty : s.parameter = {})
    (location : Option Int)
    : s.acceptAll (DeclaredVariable.layoutTokens location)
      = s.collect (DeclaredVariable.layoutKeywords location) := by
  cases location with
  | none =>
      simp [DeclaredVariable.layoutTokens, DeclaredVariable.layoutKeywords, acceptAll, collect]
  | some n =>
      simp only [DeclaredVariable.layoutTokens, acceptAll, List.foldl_cons, List.foldl_nil]
      rw [accept_word closed]
      simp [accept, acceptWord, acceptMark, openParenthesis, equals, closeParenthesis,
        commitParameter, collect, PendingParameter.takeWord, Statement.annotate, closed, empty,
        DeclaredVariable.layoutKeywords, DeclaredVariable.locationParameters, Qualifier.keyword]

theorem acceptAll_keywords (settled : s.Settled) (d : DeclaredVariable)
    : s.acceptAll d.tokens = (s.collect d.keywords).finishStatement := by
  have flat {t : Scanner} (closed : t.openLists = 0)
      : t.acceptAll (if d.flat then [.word "flat"] else [])
        = t.collect (if d.flat then [{ word := Qualifier.flat.keyword }] else []) := by
    split
    · exact accept_word closed "flat"
    · simp [acceptAll, collect]
  have closed (keywords : List Keyword) : (s.collect keywords).openLists = 0 := settled.openLists
  rw [DeclaredVariable.tokens, acceptAll_append, acceptAll_append,
    acceptAll_layoutTokens settled.openLists settled.parameter, flat (closed _), collect_collect]
  simp only [acceptAll, List.foldl_cons, List.foldl_nil]
  rw [accept_word (closed _), collect_collect, accept_word (closed _), collect_collect,
    accept_word (closed _), collect_collect]
  simp [accept, acceptMark, DeclaredVariable.keywords, DeclaredVariable.qualifierKeywords]

/-- The scan with declarations added to a section. -/
def declare (s : Scanner) (name : Section) (declarations : List Declaration) : Scanner :=
  { s with declarations := s.declarations.modify name (· ++ declarations) }

theorem declare_nil (s : Scanner) (name : Section) : s.declare name [] = s := by
  have same : s.declarations.modify name (· ++ []) = s.declarations := by
    apply OrderedMap.ext
    simp [OrderedMap.modify]
  rw [declare, same]

theorem declare_declare (s : Scanner) (name : Section) (first second : List Declaration)
    : (s.declare name first).declare name second = s.declare name (first ++ second) := by
  have same : (s.declarations.modify name (· ++ first)).modify name (· ++ second)
      = s.declarations.modify name (· ++ (first ++ second)) := by
    apply OrderedMap.ext
    simp only [OrderedMap.modify, List.map_map]
    apply List.map_congr_left
    intro e _
    by_cases here : e.1 = name <;> simp [here]
  rw [declare, declare, declare, ← same]

/-- Directly inside a section a line adds its declaration and nothing else. -/
theorem acceptAll_tokens (settled : s.Settled) (inside : s.block = some block)
    (directly : s.depth = block.outerDepth + 1) (d : DeclaredVariable)
    : s.acceptAll d.tokens = s.declare block.name [d.declaration] := by
  have statement : (s.collect d.keywords).statement.keywords = d.keywords := by
    simp [collect, Statement.keywords, settled.statement]
  have cleared : { s.collect d.keywords with statement := {} } = s := by
    rw [collect, ← settled.statement]
  have findings : findingsOf { declaration := d.declaration, surplus := [] } = [] := by
    simp [findingsOf, Declaration.lacksName, DeclaredVariable.declaration, d.word.nonempty]
  have qualified : d.declaration.qualifiers.isEmpty = false := by
    simp [DeclaredVariable.declaration]
  have within : (s.collect d.keywords).block = some block := inside
  have place : (s.collect d.keywords).depth = block.outerDepth + 1 := directly
  rw [acceptAll_keywords settled, finishStatement_inside within, if_pos place, statement, cleared]
  simp only [interpret, d.read?_keywords, findings, reportAll, List.foldl_nil, keep, qualified]
  rfl

/-- Lines directly inside a section add their declarations in order, by induction along them. -/
theorem acceptAll_declarations (settled : s.Settled) (inside : s.block = some block)
    (directly : s.depth = block.outerDepth + 1) (declared : List DeclaredVariable)
    : s.acceptAll (declared.flatMap DeclaredVariable.tokens)
      = s.declare block.name (declared.map DeclaredVariable.declaration) := by
  induction declared generalizing s with
  | nil => exact (s.declare_nil block.name).symm
  | cons d rest ih =>
      have later := ih (s := s.declare block.name [d.declaration])
        ⟨settled.openLists, settled.statement, settled.parameter⟩ inside directly
      rw [List.flatMap_cons, acceptAll_append, acceptAll_tokens settled inside directly, later,
        declare_declare]
      rfl

theorem Settled.clear (settled : s.Settled) : { s with statement := {} } = s := by
  rw [← settled.statement]

/-- There is no statement to end between two statements. -/
theorem Settled.finishStatement (settled : s.Settled) : s.finishStatement = s := by
  rcases Option.eq_none_or_eq_some s.block with outside | ⟨block, inside⟩
  · rw [finishStatement_outside outside, settled.clear]
  · rw [finishStatement_inside inside, settled.clear, settled.statement]
    split <;> rfl

/-- The scan just inside a section. -/
def within (s : Scanner) (name : Section) : Scanner :=
  { s with
    declarations := s.declarations.insertIfNew name []
    depth := s.depth + 1
    block := some { name, outerDepth := s.depth } }

theorem acceptAll_opening (settled : s.Settled) (outside : s.block = none) {name : Section}
    (unentered : name ∉ s.declarations.keys)
    : s.acceptAll [.word name.keyword, .mark .openBrace] = s.within name := by
  have entered : (s.collect [{ word := name.keyword }]).enteredSection? = some name := by
    simp [enteredSection?, collect, outside, Statement.last?, name.ofKeyword?_keyword]
  have absent : (s.collect [{ word := name.keyword }]).declarations.contains name = false := by
    simp [OrderedMap.contains, collect, unentered]
  have enter : (s.collect [{ word := name.keyword }]).enterBlock name
      = { s.collect [{ word := name.keyword }] with
          declarations := s.declarations.insertIfNew name []
          block := some { name, outerDepth := s.depth } } := by
    simp only [enterBlock, absent]
    rfl
  -- The brace ends the statement that names the section while the depth is still the outer one,
  -- so this statement is not read as a declaration of the section.
  have outer : ¬s.depth = s.depth + 1 := by omega
  simp only [acceptAll, List.foldl_cons, List.foldl_nil]
  rw [accept_word settled.openLists, accept, acceptMark, openBrace_entering entered, enter,
    finishStatement_inside rfl]
  simp only [collect, outer, if_false, within, settled.statement]

theorem acceptAll_closing (settled : s.Settled) (inside : s.block = some block)
    (directly : s.depth = block.outerDepth + 1) (unclosed : block.name ∉ s.sources.keys)
    : s.acceptAll [.mark .closeBrace]
      = { s with
          depth := block.outerDepth
          sources := s.sources.insert block.name (block.source.retract 1).text
          block := none } := by
  have missing : s.sources.get? block.name = none :=
    (OrderedMap.get?_eq_none_iff _ _).mpr unclosed
  have shallower : s.depth - 1 = block.outerDepth := by omega
  simp only [acceptAll, List.foldl_cons, List.foldl_nil, accept, acceptMark,
    closeBrace_inside (by omega : s.depth ≠ 0) inside, shallower, if_true, settled.finishStatement,
    leaveBlock, missing]

/-- A printed section that was not there before is entered, declares its variables and is closed. -/
theorem acceptAll_printedTokens (settled : s.Settled) (outside : s.block = none) {name : Section}
    (unentered : name ∉ s.declarations.keys) (unclosed : name ∉ s.sources.keys)
    (declared : List DeclaredVariable)
    : s.acceptAll (name.printedTokens declared)
      = { s with
          declarations :=
            (s.declarations.insertIfNew name []).modify name
              (· ++ declared.map DeclaredVariable.declaration)
          sources := s.sources.insert name "" } := by
  have inner : ((s.within name).declare name
      (declared.map DeclaredVariable.declaration)).Settled :=
    ⟨settled.openLists, settled.statement, settled.parameter⟩
  rw [Section.printedTokens, acceptAll_append, acceptAll_append,
    acceptAll_opening settled outside unentered,
    acceptAll_declarations (s := s.within name) { inner with } rfl rfl,
    acceptAll_closing inner rfl rfl unclosed]
  simp only [declare, within, outside]
  rfl

theorem acceptAll_print (vertex fragment : List DeclaredVariable)
    : let t := (({} : Scanner).acceptAll
        (Section.vertex.printedTokens vertex ++ Section.fragment.printedTokens fragment)).finish
      t.declarations.getD .vertex [] = vertex.map DeclaredVariable.declaration
      ∧ t.declarations.getD .fragment [] = fragment.map DeclaredVariable.declaration
      ∧ t.sources.keys = [.vertex, .fragment]
      ∧ t.warnings = #[] := by
  let first : OrderedMap Section (List Declaration) :=
    ((∅ : OrderedMap Section (List Declaration)).insertIfNew .vertex []).modify .vertex
      (· ++ vertex.map DeclaredVariable.declaration)
  let both : OrderedMap Section (List Declaration) :=
    (first.insertIfNew .fragment []).modify .fragment
      (· ++ fragment.map DeclaredVariable.declaration)
  have unentered : Section.fragment ∉ first.keys := by
    rw [OrderedMap.keys_modify]
    decide
  have unclosed : Section.fragment ∉ ((∅ : OrderedMap Section String).insert .vertex "").keys := by
    decide
  rw [acceptAll_append,
    acceptAll_printedTokens (s := {}) ⟨rfl, rfl, rfl⟩ rfl (by decide) (by decide),
    acceptAll_printedTokens ⟨rfl, rfl, rfl⟩ rfl unentered unclosed]
  change both.getD .vertex [] = _ ∧ both.getD .fragment [] = _ ∧ _ ∧ _
  refine ⟨?_, ?_, rfl, rfl⟩
  · rw [OrderedMap.getD, OrderedMap.get?_modify_insertIfNew unentered, if_neg (by decide),
      OrderedMap.get?_modify_insertIfNew (by decide), if_pos rfl]
    simp
  · rw [OrderedMap.getD, OrderedMap.get?_modify_insertIfNew unentered, if_pos rfl]
    simp

/-- A printed shader is scanned to its end. Both sections are closed with the declarations of their
variables, and nothing is warned of.
-/
theorem scan_print (vertex fragment : List DeclaredVariable)
    : ∃ s vertexSource fragmentSource,
        ({} : Scanner).scan {} (Shader.print vertex fragment) = .ok s
        ∧ s.declarations.getD .vertex [] = vertex.map DeclaredVariable.declaration
        ∧ s.declarations.getD .fragment [] = fragment.map DeclaredVariable.declaration
        ∧ s.sources.get? .vertex = some vertexSource
        ∧ s.sources.get? .fragment = some fragmentSource
        ∧ s.warnings = #[] := by
  obtain ⟨s, scanned, agrees⟩ := scan_agree_flat (Shader.print vertex fragment)
  rw [Shader.tokens_print] at agrees
  obtain ⟨vertexDeclared, fragmentDeclared, closed, quiet⟩ := acceptAll_print vertex fragment
  have keys : s.sources.keys = [.vertex, .fragment] := agrees.sourceKeys.trans closed
  have found (name : Section) (member : name ∈ s.sources.keys)
      : ∃ source, s.sources.get? name = some source :=
    Option.isSome_iff_exists.mp ((OrderedMap.get?_isSome_iff _ name).mpr member)
  obtain ⟨vertexSource, vertexClosed⟩ := found .vertex (by simp [keys])
  obtain ⟨fragmentSource, fragmentClosed⟩ := found .fragment (by simp [keys])
  have warnings := agrees.warnings
  rw [quiet] at warnings
  refine ⟨s, vertexSource, fragmentSource, scanned, agrees.declarations ▸ vertexDeclared,
    agrees.declarations ▸ fragmentDeclared, vertexClosed, fragmentClosed, ?_⟩
  simpa using warnings

end ShaderReflection.Scanner
