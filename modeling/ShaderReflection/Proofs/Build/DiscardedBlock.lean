import ShaderReflection.Proofs.Build.JoinedTexts
import ShaderReflection.Proofs.Scanner.SectionOpening
import ShaderReflection.Proofs.Stage.ValidStages

/-! A block that is still open where its text ends. Its source is discarded, but its declarations
are kept: they count where an earlier block of its section was closed, and nowhere else.
-/

namespace ShaderReflection

namespace Declaration

theorem variablesOf_append (role : Role) (declarations others : List Declaration)
    : variablesOf role (declarations ++ others)
      = variablesOf role declarations ++ variablesOf role others := by
  simp [variablesOf]

/-- Declarations without a role declare no variables, and only these do not. -/
theorem variablesOf_eq_nil_iff {declarations : List Declaration}
    : (∀ role, variablesOf role declarations = []) ↔ ∀ d ∈ declarations, d.role? = none := by
  simp only [variablesOf, List.map_eq_nil_iff, List.filter_eq_nil_iff, decide_eq_true_eq]
  constructor
  · intro without d member
    exact Option.eq_none_iff_forall_ne_some.mpr fun role => without role d member
  · intro without role d member
    simp [without d member]

end Declaration

namespace Scanner

open Text

/-- No block and no parameter list is open, and no statement is pending. Other braces may be open.
-/
structure Idle (s : Scanner) : Prop where
  block : s.block = none
  openLists : s.openLists = 0
  statement : s.statement = {}

instance (s : Scanner) : Decidable s.Idle :=
  decidable_of_iff (s.block = none ∧ s.openLists = 0 ∧ s.statement = {})
    ⟨fun ⟨block, openLists, statement⟩ => ⟨block, openLists, statement⟩,
      fun idle => ⟨idle.block, idle.openLists, idle.statement⟩⟩

variable {before inside : String} {name : Section} {s t : Scanner}

/-- A text, and behind it a section that is opened and goes on with further lines. -/
def withBlock (before : String) (name : Section) (inside : String) : String :=
  before ++ "\n" ++ (name.opening ++ "\n" ++ inside)

/-- The position of the brace with which that section is opened. -/
def bracePosition (before : String) (name : Section) : Nat :=
  (before ++ "\n" ++ (name.keyword ++ " ")).toList.length

-----------------------------------------------------------------------------------------
-- The section is entered
-----------------------------------------------------------------------------------------

/-- In front of the brace only the keyword is pending. -/
theorem fed_keyword (idle : (fed before).Idle) (name : Section)
    : fed (before ++ "\n" ++ (name.keyword ++ " "))
      = { fed before with statement := ({} : Statement).push name.keyword } := by
  rw [fed_append, ofText_keyword]
  change (fed before).acceptWord name.keyword = _
  rw [acceptWord, if_pos idle.openLists, idle.statement]

/-- Behind the brace the scan is inside a block of the section, which has declared nothing yet. -/
theorem fed_opening (idle : (fed before).Idle) (name : Section)
    : ∃ warnings,
        fed (before ++ "\n" ++ name.opening)
        = { fed before with
            statement := {}
            depth := (fed before).depth + 1
            block := some { name, outerDepth := (fed before).depth }
            declarations := (fed before).declarations.insertIfNew name []
            warnings } := by
  let s : Scanner := { fed before with statement := ({} : Statement).push name.keyword }
  have reached : fed (before ++ "\n" ++ name.opening) = s.openBrace := by
    rw [fed_append, ofText_opening]
    change ((fed before).acceptWord name.keyword).openBrace = _
    rw [acceptWord, if_pos idle.openLists, idle.statement]
  have entered : s.enteredSection? = some name := by
    have outside : s.block = none := idle.block
    simp only [enteredSection?, outside]
    exact name.ofKeyword?_keyword
  obtain ⟨warnings, inBlock⟩ := s.enterBlock_eq name
  refine ⟨warnings, ?_⟩
  rw [reached, openBrace_entering entered, inBlock, finishStatement_inside rfl, if_neg (by simp)]

/-- The scan of the whole text enters the section where it is opened. -/
theorem entered_withBlock (idle : (fed before).Idle) (name : Section) (inside : String)
    : let cs := (withBlock before name inside).toList
      let i := bracePosition before name
      entered? cs i = some name
      ∧ (upTo cs (i + 1)).openLists = 0
      ∧ (upTo cs (i + 1)).declarations = (fed before).declarations.insertIfNew name [] := by
  intro cs i
  have cutFront : cs = (before ++ "\n" ++ (name.keyword ++ " ")).toList
      ++ '\x7b' :: '\n' :: inside.toList := by
    simp [cs, withBlock, Section.opening]
  have cutBehind : cs = (before ++ "\n" ++ name.opening).toList ++ '\n' :: inside.toList := by
    simp [cs, withBlock, Section.opening]
  have position : (before ++ "\n" ++ name.opening).toList.length = i + 1 := by
    simp [i, bracePosition, Section.opening]
    omega
  obtain ⟨_, opened⟩ := fed_opening idle name
  have outside : (fed (before ++ "\n" ++ (name.keyword ++ " "))).block = none := by
    rw [fed_keyword idle]
    exact idle.block
  have inBlock : (fed (before ++ "\n" ++ (name.keyword ++ " ") ++ "\x7b")).block
      = some { name, outerDepth := (fed before).depth } := by
    rw [String.append_assoc, ← name.opening_eq, opened]
  have entered := entered_of_fed ('\n' :: inside.toList) outside inBlock
  have behind := upTo_fed (before ++ "\n" ++ name.opening) ('\n' :: inside.toList)
    (Or.inr (by simp))
  rw [← cutBehind, position, opened] at behind
  rw [← cutFront] at entered
  exact ⟨entered, behind.2.1.trans idle.openLists, behind.2.2⟩

/-- No block is closed between the first text and the brace behind it. -/
theorem sources_withBlock (before : String) (name : Section) (inside : String)
    : (upTo (withBlock before name inside).toList (bracePosition before name + 1)).sources
      = (ofText before).sources := by
  have cut : (withBlock before name inside).toList
      = before.toList ++ ('\n' :: name.opening.toList ++ '\n' :: inside.toList) := by
    simp [withBlock]
  have position
      : bracePosition before name + 1 = before.toList.length + ('\n' :: name.opening.toList).length := by
    simp [bracePosition, Section.opening]
    omega
  have start
      : upTo (withBlock before name inside).toList before.toList.length
        = upTo before.toList before.toList.length := by
    rw [cut]
    exact upTo_append (Or.inr (by simp)) (Nat.le_refl _)
  rw [ofText, (finish_place _).sources, ← start]
  apply sources_of_no_brace (by omega)
  intro m after earlier brace
  rw [cut, List.getElem?_append_right after, List.getElem?_append_left (by omega)] at brace
  have member := List.mem_of_getElem? brace
  revert member
  cases name <;> decide +kernel

-----------------------------------------------------------------------------------------
-- What the open block leaves
-----------------------------------------------------------------------------------------

theorem Idle.fed (idle : (ofText before).Idle) : (fed before).Idle := by
  obtain ⟨_, agrees⟩ := ofText_agree before
  refine ⟨?_, agrees.openLists.symm.trans idle.openLists,
    agrees.statement.symm.trans idle.statement⟩
  have place := agrees.place.symm
  rw [idle.block] at place
  exact Option.map_eq_none_iff.mp place

/-- What an open block declares, read on its own. -/
def declaredAlone (name : Section) (inside : String) : List Declaration :=
  (ofText (name.opening ++ "\n" ++ inside)).declarations.getD name []

theorem declaredAlone_eq (name : Section) (inside : String)
    : declaredAlone name inside
      = ((({} : Scanner).acceptAll name.openingTokens).acceptAll
          (Token.ofText inside.toList)).declarations.getD name [] := by
  obtain ⟨_, agrees⟩ := ofText_agree (name.opening ++ "\n" ++ inside)
  rw [declaredAlone, agrees.declarations, fed_append, fed, ofText_opening]

theorem slice_withBlock (before : String) (name : Section) (inside : String)
    : slice (withBlock before name inside).toList (bracePosition before name + 1)
        (withBlock before name inside).toList.length
      = '\n' :: inside.toList := by
  have cut : (withBlock before name inside).toList
      = (before ++ "\n" ++ name.opening).toList ++ '\n' :: inside.toList := by
    simp [withBlock]
  have position
      : (before ++ "\n" ++ name.opening).toList.length = bracePosition before name + 1 := by
    simp [bracePosition, Section.opening]
    omega
  rw [slice, List.take_length, cut, List.drop_left' position]

/-- A block that is never closed adds its declarations to those of its section, and nothing else. -/
theorem collected_withBlock (idle : (ofText before).Idle)
    (unclosed : closing? (withBlock before name inside).toList (bracePosition before name) = none)
    : let s := ofText (withBlock before name inside)
      (∃ block, s.block = some block ∧ block.name = name)
      ∧ (∀ other, s.sources.get? other = (ofText before).sources.get? other)
      ∧ ∀ other,
          s.declarations.getD other []
          = (ofText before).declarations.getD other []
            ++ if other = name then declaredAlone name inside else [] := by
  intro s
  obtain ⟨entered, lists, declarations⟩ := entered_withBlock idle.fed name inside
  have sources := sources_withBlock before name inside
  have rest := slice_withBlock before name inside
  obtain ⟨_, agrees⟩ := ofText_agree before
  have ended : s = (upTo (withBlock before name inside).toList _).finish := rfl
  generalize (withBlock before name inside).toList = cs at *
  generalize bracePosition before name = i at *
  have remains : ∀ m < cs.length, closing? cs i ≠ some m := by simp [unclosed]
  have behind := lt_length_of_entered entered
  obtain ⟨block, atEnd, named⟩ := inside_of_entered entered behind (Nat.le_refl _) remains
  obtain ⟨⟨_, atStart, _⟩, _⟩ := upTo_of_entered entered
  obtain ⟨directly, settled, nothing⟩ := directly_opening name
  have start (other : Section)
      : (upTo cs (i + 1)).declarations.getD other [] = (ofText before).declarations.getD other [] := by
    rw [declarations, OrderedMap.getD_insertIfNew_nil, agrees.declarations]
  refine ⟨⟨block, ?_, named⟩, ?_, ?_⟩
  · rw [ended, (finish_place _).block, atEnd.place]
  · intro other
    rw [ended, (finish_place _).sources, atEnd.sources, ← atStart.sources, sources]
  · intro other
    rw [ended, finish_declarations]
    split
    · next same =>
        subst same
        have read := inStep_of_entered entered behind (Nat.le_refl _) remains (by simp) lists
          directly settled ((start other).trans (by rw [nothing, List.append_nil]))
        have tokens : Token.ofText ('\n' :: inside.toList) = Token.ofText inside.toList := by
          rw [Token.ofText_eq_scanning, Token.ofText_eq_scanning, Token.scanning, if_pos rfl]
          rfl
        rw [rest, tokens] at read
        rw [← flushWord_declarations, read.declarations, declaredAlone_eq]
    · next different =>
        have elsewhere (m : Nat) (after : i + 1 ≤ m) (before : m < cs.length)
            : sectionAt? cs m ≠ some other := by
          rw [atEnd.active m after (Nat.le_of_lt before), named]
          exact fun same => different (Option.some.inj same).symm
        rw [declarations_elsewhere behind elsewhere, start, List.append_nil]

-----------------------------------------------------------------------------------------
-- What is built
-----------------------------------------------------------------------------------------

/-- A block that is open where a text ends is reported. -/
theorem unclosedSection_mem {block : Block} (remains : s.finish.block = some block)
    : Warning.unclosedSection block.name ∈ s.finish.result.warnings := by
  have here : s.flushWord.block = some block := remains
  have told : Warning.unclosedSection block.name ∈ s.flushWord.closingWarnings := by
    simp [closingWarnings, here]
  rw [result_warnings, ← Array.mem_toList_iff, Array.toList_appendList]
  apply List.mem_append_left
  change _ ∈ (s.flushWord.warnings ++ s.flushWord.closingWarnings).toList
  rw [Array.toList_appendList]
  exact List.mem_append_right _ told

/-- Sections with the same sources that give each closed section the same variables assemble alike.
-/
theorem assemble_congr (sources : ∀ name, s.sources.get? name = t.sources.get? name)
    (declared
      : ∀ entry ∈ StageKind.pipeline, s.sources.get? entry.2 ≠ none → ∀ role,
          Declaration.variablesOf role (s.declarations.getD entry.2 [])
          = Declaration.variablesOf role (t.declarations.getD entry.2 []))
    : s.sections.assemble = t.sections.assemble := by
  apply OrderedMap.ext
  rw [Sections.entries_assemble, Sections.entries_assemble, Sections.stages, Sections.stages,
    List.map_filterMap, List.map_filterMap]
  apply List.filterMap_congr
  intro entry member
  simp only [sections, sources, Option.map_map]
  cases closed : t.sources.get? entry.2 with
  | none => rfl
  | some source =>
      have same := declared entry member (by simp [sources, closed])
      simp only [Option.map_some, Function.comp_apply, Stage.assemble, same]

/-- If the declarations of an open block count, the stage of its section has more variables. -/
theorem role?_of_sameShader (sSucceeds : s.result.error = none) (tSucceeds : t.result.error = none)
    (same : s.result.shader = t.result.shader) (stage : name ≠ .common) {added : List Declaration}
    (declarations
      : ∀ other, s.declarations.getD other []
          = t.declarations.getD other [] ++ if other = name then added else [])
    : ∀ d ∈ added, d.role? = none := by
  obtain ⟨_, _, sVertex, sFragment, _⟩ :=
    s.sections.fault?_eq_none_iff.mp (fault?_of_succeeds sSucceeds)
  obtain ⟨_, _, tVertex, tFragment, _⟩ :=
    t.sections.fault?_eq_none_iff.mp (fault?_of_succeeds tSucceeds)
  obtain ⟨_, sStages, _⟩ := result_of_valid sVertex sFragment (fault?_of_succeeds sSucceeds)
  obtain ⟨_, tStages, _⟩ := result_of_valid tVertex tFragment (fault?_of_succeeds tSucceeds)
  rw [same, tStages] at sStages
  have numbers := congrArg
    (List.map fun e => (e.2.inputs.length, e.2.outputs.length, e.2.uniforms.length)) sStages
  have arranged (inputs : List Variable) : (Variable.arrange inputs).length = inputs.length :=
    List.length_mergeSort inputs
  simp only [List.map_cons, List.map_nil, Stage.assemble, arranged, declarations,
    Declaration.variablesOf_append, List.length_append, List.cons.injEq, Prod.mk.injEq,
    Nat.left_eq_add, List.length_eq_zero_iff] at numbers
  obtain ⟨vertex, fragment, _⟩ := numbers
  apply Declaration.variablesOf_eq_nil_iff.mp
  intro role
  cases name with
  | common => exact absurd rfl stage
  | vertex =>
      rw [if_pos rfl] at vertex
      cases role with
      | input => exact vertex.1
      | output => exact vertex.2.1
      | uniform => exact vertex.2.2
  | fragment =>
      rw [if_pos rfl] at fragment
      cases role with
      | input => exact fragment.1
      | output => exact fragment.2.1
      | uniform => exact fragment.2.2

end Scanner

open Scanner in
/-- Behind a text that leaves nothing pending, a block that is never closed is reported, and no
source is affected. Its declarations join those of its section all the same. So the outcome stays
the same if no stage is made of that section, or if the block declares no input, output or uniform;
and where the text before it builds, only then.
-/
theorem open_block_declares (before : String) (name : Section) (inside : String)
    (idle : (ofText before).Idle)
    (unclosed
      : Text.closing? (withBlock before name inside).toList (bracePosition before name) = none)
    : let text := withBlock before name inside
      let added := declaredAlone name inside
      let counts := name ≠ .common ∧ (ofText before).sources.get? name ≠ none
        ∧ ∃ d ∈ added, d.role? ≠ none
      let unchanged := (build {} text).shader = (build {} before).shader
        ∧ (build {} text).error = (build {} before).error
      Warning.unclosedSection name ∈ (build {} text).warnings
      ∧ (∀ other, (ofText text).sources.get? other = (ofText before).sources.get? other)
      ∧ (∀ other,
          (ofText text).declarations.getD other []
          = (ofText before).declarations.getD other [] ++ if other = name then added else [])
      ∧ (¬counts → unchanged)
      ∧ ((build {} before).error = none → counts → ¬unchanged) := by
  intro text added counts unchanged
  obtain ⟨⟨block, remains, named⟩, sources, declarations⟩ := collected_withBlock idle unclosed
  refine ⟨?_, sources, declarations, ?_, ?_⟩
  · rw [build_of_scan (scan_unlimited text), ← named]
    exact unclosedSection_mem remains
  · intro silent
    simp only [unchanged, build_of_scan (scan_unlimited _)]
    refine result_congr_of_assemble (assemble_congr sources ?_) sources
    intro entry member closed role
    rw [declarations, Declaration.variablesOf_append]
    split
    · next same =>
        have stages : ∀ entry ∈ StageKind.pipeline, entry.2 ≠ .common := by decide
        have roleless : ∀ d ∈ added, d.role? = none := by
          intro d declared
          by_contra role
          have closedBefore : (ofText before).sources.get? name ≠ none := by
            intro absent
            exact closed ((sources entry.2).trans (same ▸ absent))
          exact silent ⟨same ▸ stages entry member, closedBefore, d, declared, role⟩
        rw [Declaration.variablesOf_eq_nil_iff.mpr roleless role, List.append_nil]
    · exact List.append_nil _
  · rintro succeeds ⟨stage, _, d, member, role⟩ ⟨shader, error⟩
    rw [build_of_scan (scan_unlimited _)] at succeeds shader error
    rw [build_of_scan (scan_unlimited _)] at shader error
    exact role (role?_of_sameShader (error.trans succeeds) succeeds shader stage declarations d member)

open Scanner in
/-- Witness: behind a closed fragment section, inside a brace that stays open, an open block of that
section adds an output to its declarations and nothing to its source, and the same block of the
common section changes nothing.
-/
theorem open_block_declares_nested
    : let before := "struct\x7bvertex\x7bin vec3 a;\x7dfragment\x7bout vec4 c;\x7d"
      let inside := "out vec4 d;\x7bin\x7d// \x7d"
      let text := withBlock before .fragment inside
      (ofText before).Idle
      ∧ (ofText before).depth = 1
      ∧ Text.closing? text.toList (bracePosition before .fragment) = none
      ∧ Warning.unclosedSection .fragment ∈ (build {} text).warnings
      ∧ (ofText text).sources.get? .fragment = some "out vec4 c;"
      ∧ ((ofText text).declarations.getD .fragment []).map Declaration.name = ["c", "d"]
      ∧ (build {} text).shader ≠ (build {} before).shader
      ∧ (build {} (withBlock before .common inside)).shader = (build {} before).shader := by
  intro before inside text
  have idle : (ofText before).Idle := by decide +kernel
  have unclosed : Text.closing? text.toList (bracePosition before .fragment) = none := by
    decide +kernel
  obtain ⟨reported, sources, declarations, _, counts⟩ :=
    open_block_declares before .fragment inside idle unclosed
  obtain ⟨_, _, _, silent, _⟩ :=
    open_block_declares before .common inside idle (by decide +kernel)
  have changed := counts (by decide +kernel)
    ⟨by decide, by rw [← sources]; decide +kernel, by decide +kernel⟩
  refine ⟨idle, by decide +kernel, unclosed, reported, ?_, ?_, ?_, ?_⟩
  · rw [sources]
    decide +kernel
  · rw [declarations]
    decide +kernel
  · exact fun same => changed ⟨same, by decide +kernel⟩
  · exact (silent fun counted => counted.1 rfl).1

/-- A block whose source is discarded can make a text build that lacks a vertex input. -/
theorem open_block_changes_error
    : ¬∀ before name inside,
        (Scanner.ofText before).Idle
        → Text.closing? (Scanner.withBlock before name inside).toList
            (Scanner.bracePosition before name) = none
        → (build {} (Scanner.withBlock before name inside)).shader = (build {} before).shader
          ∧ (build {} (Scanner.withBlock before name inside)).code = (build {} before).code := by
  intro discarded
  have same := discarded "vertex\x7b\x7dfragment\x7bout vec4 c;\x7d" .vertex "in vec3 a;"
    (by decide +kernel) (by decide +kernel)
  revert same
  decide +kernel

end ShaderReflection
