import ShaderReflection.Proofs.Build.JoinedTexts
import ShaderReflection.Proofs.Scanner.ClosedBlocks
import ShaderReflection.Proofs.Stage.ValidStages

/-! Captured sources put back into blocks of their sections. A captured source lacks the line breaks
and tabs of its text. Where it has the tokens of its text all the same, and no parameter list or
statement reaches from one block into another, it builds the stage that it was captured with.
-/

namespace ShaderReflection

/-- A section with a single block around a source. -/
def Section.enclose (name : Section) (source : String) : String :=
  name.opening ++ source ++ "\n" ++ "\x7d"

/-- The text of a shader whose stages have the given sources. -/
def Shader.textOf (vertex fragment : String) : String :=
  Section.vertex.enclose vertex ++ "\n" ++ Section.fragment.enclose fragment

namespace Text

theorem kept_append (first second : List Char) : kept (first ++ second) = kept first ++ kept second :=
  List.filter_append first second

theorem kept_kept (cs : List Char) : kept (kept cs) = kept cs := by
  simp [kept]

/-- Joined texts hold nothing that is left out if none of them does, by induction along them. -/
theorem kept_joined {texts : List String} {whole : String}
    (each : ∀ text ∈ texts, kept text.toList = text.toList) (found : joined texts = some whole)
    : kept whole.toList = whole.toList := by
  induction texts generalizing whole with
  | nil => cases found
  | cons text rest ih =>
      have first := each text List.mem_cons_self
      cases rest with
      | nil =>
          cases found
          simpa using first
      | cons next more =>
          have later := ih (fun other member => each other (List.mem_cons_of_mem text member)) rfl
          cases found
          rw [String.intercalate_cons_cons, String.toList_append, String.toList_append, kept_append,
            kept_append, first, later]
          rfl

theorem unbroken_of_kept {cs : List Char} (whole : kept cs = cs) : '\n' ∉ cs := by
  rw [← whole]
  simp [kept, Buffer.isLeftOut]

end Text

namespace Scanner

open Text CapturedBlock

variable {cs : List Char} {name : Section} {source text : String} {i n : Nat} {s t : Scanner}

theorem kept_source (found : (ofText text).sources.get? name = some source)
    : kept source.toList = source.toList := by
  rw [sources_ofText] at found
  refine kept_joined ?_ found
  intro part member
  obtain ⟨block, among, rfl⟩ := List.mem_map.mp member
  obtain ⟨i, _, here⟩ := List.mem_filterMap.mp (List.mem_filter.mp among).1
  obtain ⟨_, _, rfl⟩ := Option.map_eq_some_iff.mp here
  rw [String.toList_ofList, kept_kept]

-----------------------------------------------------------------------------------------
-- A section with a single block
-----------------------------------------------------------------------------------------

/-- Inside the block the tokens of the source are read. -/
theorem fed_opening_source (name : Section) (unbroken : '\n' ∉ source.toList)
    : fed (name.opening ++ source) = readInBlock name (Token.ofText source.toList) := by
  have line {cs : List Char} (unbroken : '\n' ∉ cs) : Token.ofText cs = Token.reading [] cs := by
    have lines : Text.lines cs = [cs] := split_of_not_mem unbroken
    rw [Token.ofText, lines, List.map_singleton, List.flatten_singleton, Token.ofLine_eq_reading]
  have opening : '\n' ∉ name.opening.toList := by cases name <;> decide +kernel
  have both : '\n' ∉ name.opening.toList ++ source.toList := by simp [opening, unbroken]
  rw [fed, String.toList_append, line both, Token.reading_opening, ← line unbroken,
    acceptAll_append, readInBlock]

theorem fed_opened (name : Section) (unbroken : '\n' ∉ source.toList)
    : fed (name.opening ++ source ++ "\n") = readInBlock name (Token.ofText source.toList) := by
  have nothing : Token.ofText "".toList = [] := by
    rw [Token.ofText_eq_scanning]
    rfl
  have split := fed_append (name.opening ++ source) ""
  rw [String.append_empty, nothing, fed_opening_source name unbroken] at split
  exact split

theorem fed_enclose (name : Section) (unbroken : '\n' ∉ source.toList)
    : fed (name.enclose source) = (readInBlock name (Token.ofText source.toList)).closeBrace := by
  have brace : Token.ofText "\x7d".toList = [.mark .closeBrace] := by
    rw [Token.ofText_eq_scanning]
    decide +kernel
  rw [Section.enclose, fed_append, brace, fed_opening_source name unbroken]
  rfl

theorem finishStatement_keys (s : Scanner)
    : s.finishStatement.declarations.keys = s.declarations.keys := by
  rcases s.finishStatement_cases with dropped | ⟨_, _, _, _, _, kept⟩
  · rw [dropped]
  · rw [kept, keep]
    split <;> simp

/-- A brace closes a block directly around it. -/
theorem Directly.closeBrace (h : Directly name t)
    : t.closeBrace.depth = 0
      ∧ t.closeBrace.block = none
      ∧ t.closeBrace.openLists = t.openLists
      ∧ t.closeBrace.statement = {}
      ∧ t.closeBrace.declarations = t.finishStatement.declarations
      ∧ t.closeBrace.sources.keys = [name] := by
  have positive : t.depth ≠ 0 := by simp [h.depth]
  have done := t.finished
  rw [closeBrace_inside positive h.block, if_pos (by simp [h.depth])]
  refine ⟨by simp [leaveBlock, h.depth], rfl, done.openLists, done.statement, rfl, ?_⟩
  simp only [leaveBlock, OrderedMap.keys_insert, done.sources, h.sources]
  rfl

/-- What a section with a single block leaves, if the source does not close that block. -/
theorem ofText_enclose (unbroken : '\n' ∉ source.toList)
    (directly : Directly name (readInBlock name (Token.ofText source.toList)))
    : let s := ofText (name.enclose source)
      let t := readInBlock name (Token.ofText source.toList)
      s.depth = 0
      ∧ s.block = none
      ∧ s.openLists = t.openLists
      ∧ s.statement = {}
      ∧ s.declarations = t.finishStatement.declarations
      ∧ s.sources.keys = [name] := by
  intro s t
  obtain ⟨depth, block, openLists, statement, declarations, sources⟩ := directly.closeBrace
  obtain ⟨_, agrees⟩ := ofText_agree (name.enclose source)
  have ended := fed_enclose name unbroken
  have place := agrees.place
  rw [ended, block] at place
  refine ⟨agrees.depth.trans ?_, Option.map_eq_none_iff.mp place, agrees.openLists.trans ?_,
    agrees.statement.trans ?_, agrees.declarations.trans ?_, agrees.sourceKeys.trans ?_⟩
  all_goals rw [ended]
  · exact depth
  · exact openLists
  · exact statement
  · exact declarations
  · exact sources

/-- As long as a section has no source, the block that is entered first is not left. -/
theorem inside_of_no_source (entered : entered? cs i = some name) (behind : i < n)
    (inText : n ≤ cs.length) (absent : (upTo cs n).sources.get? name = none)
    : ∃ block, Inside cs i n block ∧ block.name = name := by
  refine inside_of_entered entered behind inText ?_
  intro m before closes
  let closed : CapturedBlock :=
    { name, source := String.ofList (kept (slice cs (i + 1) m)), closed := true }
  have captured : blockFrom? cs i = some closed := by
    simp only [blockFrom?, entered, closes, Option.map_some, Option.getD_some, Option.isSome_some,
      closed]
  have listed {p : Nat} (later : i < p)
      : joined (closedSources name (blocksBefore cs p)) ≠ none := by
    have among : closed ∈ blocksBefore cs p :=
      List.mem_filterMap.mpr ⟨i, List.mem_range.mpr later, captured⟩
    have member : closed.source ∈ closedSources name (blocksBefore cs p) :=
      List.mem_map_of_mem (List.mem_filter.mpr ⟨among, by simp [closed]⟩)
    intro none
    cases sources : closedSources name (blocksBefore cs p) with
    | nil => simp [sources] at member
    | cons source more => simp [sources, joined] at none
  rcases outside_or_inside inText with outside | ⟨j, block, inside⟩
  · rw [outside.sources] at absent
    exact listed behind absent
  · rw [inside.sources] at absent
    refine listed ?_ absent
    rcases Nat.lt_trichotomy j i with earlier | rfl | later
    · have active := inside.active i earlier (Nat.le_of_lt behind)
      rw [sectionAt?, (entered?_eq_some entered).1] at active
      cases active
    · obtain ⟨⟨after, _, _, zero⟩, _⟩ := closing?_eq_some_iff.mp closes
      have positive := inside.unclosed (m + 1) (by omega) before
      omega
    · exact later

/-- A section with a single block is entered at the brace behind its keyword. -/
theorem entered_opening (name : Section) (rest : List Char)
    : entered? (name.opening.toList ++ rest) (name.keyword ++ " ").toList.length = some name := by
  have outside : (fed (name.keyword ++ " ")).block = none := by
    rw [fed, ofText_keyword]
    exact (acceptWord_place {} name.keyword).block
  have inside : (fed (name.keyword ++ " " ++ "\x7b")).block = some { name, outerDepth := 0 } := by
    rw [← name.opening_eq, fed, ofText_opening]
    exact (directly_opening name).1.block
  have cut : name.opening.toList ++ rest = (name.keyword ++ " ").toList ++ '\x7b' :: rest := by
    simp [Section.opening]
  rw [cut]
  exact entered_of_fed rest outside inside

/-- In front of the closing brace of a section with a single block, that block has captured the
source and no other one was closed.
-/
theorem inside_enclose (whole : kept source.toList = source.toList)
    (directly : Directly name (readInBlock name (Token.ofText source.toList)))
    : let cs := (name.enclose source).toList
      let n := (name.opening ++ source ++ "\n").toList.length
      (upTo cs n).sources.get? name = none
      ∧ ∃ block,
          (upTo cs n).block = some block ∧ block.name = name ∧ block.source.text = source := by
  intro cs n
  have cut : cs = (name.opening ++ source ++ "\n").toList ++ ['\x7d'] := by
    simp [cs, Section.enclose]
  have cutOpening : cs = name.opening.toList ++ (source.toList ++ ['\n', '\x7d']) := by
    simp [cs, Section.enclose]
  have length : n = name.opening.toList.length + (source.toList.length + 1) := by simp [n]
  have position : name.opening.toList.length = (name.keyword ++ " ").toList.length + 1 := by
    simp [Section.opening]
  have entered := entered_opening name (source.toList ++ ['\n', '\x7d'])
  rw [← cutOpening] at entered
  have absent : (upTo cs n).sources.get? name = none := by
    obtain ⟨_, agrees⟩ := ofText_agree (name.opening ++ source ++ "\n")
    have keys := agrees.sourceKeys
    rw [fed_opened name (unbroken_of_kept whole), directly.sources, ofText,
      (finish_place _).sources] at keys
    rw [cut, upTo_append (Or.inr (by simp)) (Nat.le_refl _), OrderedMap.get?_eq_none_iff, keys]
    exact List.not_mem_nil
  have inText : n ≤ cs.length := by
    rw [cut, List.length_append]
    exact Nat.le_add_right _ _
  obtain ⟨block, inside, named⟩ := inside_of_no_source entered (by omega) inText absent
  refine ⟨absent, block, inside.place, named, ?_⟩
  have inner : slice cs ((name.keyword ++ " ").toList.length + 1) n = source.toList ++ ['\n'] := by
    have front : (name.opening ++ source ++ "\n").toList
        = name.opening.toList ++ (source.toList ++ ['\n']) := by
      simp
    rw [slice, cut, List.take_left' rfl, ← position, front, List.drop_left' rfl]
  have lineBreak : kept ['\n'] = [] := rfl
  rw [Buffer.text, inside.source, inner, kept_append, whole, lineBreak, List.append_nil,
    String.ofList_toList]

/-- A block that is left adds what it has captured to the source of its section. -/
theorem sources_of_left {c : Char} {block : Block} (found : cs[n]? = some c)
    (inside : (upTo cs n).block = some block) (outside : (upTo cs (n + 1)).block = none)
    : (upTo cs (n + 1)).sources.get? block.name
      = merge ((upTo cs n).sources.get? block.name) (some block.source.text) := by
  have turn := upTo_turn found
  generalize braceWeight cs n = w at turn
  have leaves (place : (upTo cs (n + 1)).block = (upTo cs n).block.map (Block.capture · c))
      : False := by
    rw [outside, inside] at place
    cases place
  cases turn with
  | stays place _ _ => exact (leaves place).elim
  | deepens place _ _ => exact (leaves place).elim
  | enters _ before _ _ _ => cases before.symm.trans inside
  | ignored place _ _ _ => exact (leaves place).elim
  | rises place _ _ _ => exact (leaves place).elim
  | leaves around here _ _ _ sources =>
      cases here.symm.trans inside
      rw [sources, if_pos rfl]

/-- A section with a single block has the source in that block, if the source does not close it. -/
theorem sources_enclose (whole : kept source.toList = source.toList)
    (directly : Directly name (readInBlock name (Token.ofText source.toList)))
    : (ofText (name.enclose source)).sources.get? name = some source := by
  obtain ⟨absent, block, inside, rfl, captured⟩ := inside_enclose whole directly
  obtain ⟨_, outside, _⟩ := ofText_enclose (unbroken_of_kept whole) directly
  have cut : (block.name.enclose source).toList
      = (block.name.opening ++ source ++ "\n").toList ++ ['\x7d'] := by
    simp [Section.enclose]
  have length : (block.name.enclose source).toList.length
      = (block.name.opening ++ source ++ "\n").toList.length + 1 := by
    rw [cut, List.length_append, List.length_singleton]
  have found : (block.name.enclose source).toList[
      (block.name.opening ++ source ++ "\n").toList.length]? = some '\x7d' := by
    rw [cut, List.getElem?_append_right (Nat.le_refl _), Nat.sub_self]
    rfl
  rw [ofText, (finish_place _).block, length] at outside
  rw [ofText, (finish_place _).sources, length, sources_of_left found inside outside, absent,
    captured]
  rfl

theorem opened_enclose (unbroken : '\n' ∉ source.toList)
    (directly : Directly name (readInBlock name (Token.ofText source.toList)))
    : opened (name.enclose source) = [name] := by
  obtain ⟨_, _, _, _, declarations, _⟩ := ofText_enclose unbroken directly
  rw [opened, declarations, finishStatement_keys, directly.only]

/-- Two sections with a single block each are scanned apart, if the first source leaves no parameter
list open.
-/
theorem collected_textOf {vertex fragment : String}
    (vertexWhole : kept vertex.toList = vertex.toList)
    (fragmentWhole : kept fragment.toList = fragment.toList)
    (inVertex : Directly .vertex (readInBlock .vertex (Token.ofText vertex.toList)))
    (inFragment : Directly .fragment (readInBlock .fragment (Token.ofText fragment.toList)))
    (lists : (readInBlock .vertex (Token.ofText vertex.toList)).openLists = 0)
    : let s := ofText (Shader.textOf vertex fragment)
      s.sources.get? .vertex = some vertex
      ∧ s.sources.get? .fragment = some fragment
      ∧ s.declarations.getD .vertex []
        = (readInBlock .vertex
            (Token.ofText vertex.toList)).finishStatement.declarations.getD .vertex []
      ∧ s.declarations.getD .fragment []
        = (readInBlock .fragment
            (Token.ofText fragment.toList)).finishStatement.declarations.getD .fragment [] := by
  obtain ⟨depth, block, openLists, statement, vertexDeclarations, _⟩ :=
    ofText_enclose (unbroken_of_kept vertexWhole) inVertex
  obtain ⟨_, _, _, _, fragmentDeclarations, _⟩ :=
    ofText_enclose (unbroken_of_kept fragmentWhole) inFragment
  have neutral : Neutral (Section.vertex.enclose vertex) :=
    ⟨depth, block, openLists.trans lists, statement⟩
  have continues := neutral.continues (Section.fragment.enclose fragment)
  have fragmentAbsent : Section.fragment ∉ opened (Section.vertex.enclose vertex) := by
    rw [opened_enclose (unbroken_of_kept vertexWhole) inVertex]
    decide
  have vertexAbsent : Section.vertex ∉ opened (Section.fragment.enclose fragment) := by
    rw [opened_enclose (unbroken_of_kept fragmentWhole) inFragment]
    decide
  obtain ⟨noFragmentDeclared, noFragment⟩ := nothing_of_not_opened fragmentAbsent
  obtain ⟨noVertexDeclared, noVertex⟩ := nothing_of_not_opened vertexAbsent
  refine ⟨?_, ?_, ?_, ?_⟩
  · rw [Shader.textOf, continues.sources, sources_enclose vertexWhole inVertex, noVertex]
    rfl
  · rw [Shader.textOf, continues.sources, sources_enclose fragmentWhole inFragment, noFragment]
    rfl
  · rw [Shader.textOf, continues.declarations, noVertexDeclared, vertexDeclarations,
      List.append_nil]
  · rw [Shader.textOf, continues.declarations, noFragmentDeclared, fragmentDeclarations,
      List.nil_append]

-----------------------------------------------------------------------------------------
-- Sources read again
-----------------------------------------------------------------------------------------

/-- The captured source of a section can be read again: its blocks can be read as one, none is left
open where the text ends, and the source has the tokens that its blocks have in the text. -/
structure Rereadable (text : String) (name : Section) : Prop where
  joinable : Joinable text.toList name
  ended : sectionAt? text.toList text.toList.length ≠ some name
  tokens
    : ∀ source, (ofText text).sources.get? name = some source
        → Token.ofText source.toList = innerTokens text.toList (closedSpans text.toList name)

/-- A source that can be read again declares what its section declares. -/
theorem Rereadable.declarations (h : Rereadable text name)
    (found : (ofText text).sources.get? name = some source)
    : Directly name (readInBlock name (Token.ofText source.toList))
      ∧ (ofText text).declarations.getD name []
        = (readInBlock name
            (Token.ofText source.toList)).finishStatement.declarations.getD name [] := by
  have resumes := resumes_at_end h.joinable h.ended
  rw [h.tokens source found, ofText, finish_declarations]
  exact ⟨resumes.directly, resumes.declarations⟩

/-- No parameter list is left open by the source if none is by the last block. -/
theorem Rereadable.openLists (h : Rereadable text name)
    (found : (ofText text).sources.get? name = some source)
    (closed : ∀ span ∈ closedSpans text.toList name, (upTo text.toList span.2).openLists = 0)
    : (readInBlock name (Token.ofText source.toList)).openLists = 0 := by
  rw [h.tokens source found]
  cases last : (closedSpans text.toList name).getLast? with
  | none =>
      rw [List.getLast?_eq_none_iff.mp last]
      exact (directly_opening name).2.1.openLists
  | some span =>
      have pending := (resumes_at_end h.joinable h.ended).pending span last
      exact pending.openLists.trans
        ((flushWord_openLists _).trans (closed span (List.mem_of_getLast? last)))

end Scanner

/-- The sources of the stages of a build can be built again: put into blocks of their sections, they
give the same stages and the same layout. -/
def BuildResult.Rebuildable (result : BuildResult) : Prop :=
  ∃ vertex fragment,
    result.shader.stages.get? .vertex = some vertex
    ∧ result.shader.stages.get? .fragment = some fragment
    ∧ let again := build {} (Shader.textOf vertex.source fragment.source)
      again.error = none
      ∧ again.shader.stages = result.shader.stages
      ∧ again.shader.layout = result.shader.layout

namespace Scanner

variable {s t : Scanner}

/-- Scans that give both stages the same source and the same declarations build the same stages and
the same layout, if one of them succeeds.
-/
theorem result_of_sameStages (succeeds : s.result.error = none)
    (same
      : ∀ name, name ≠ .common
          → t.sources.get? name = s.sources.get? name
            ∧ t.declarations.getD name [] = s.declarations.getD name [])
    : t.result.error = none
      ∧ t.result.shader.stages = s.result.shader.stages
      ∧ t.result.shader.layout = s.result.shader.layout := by
  obtain ⟨vertexSource, vertexDeclared⟩ := same .vertex (by decide)
  obtain ⟨fragmentSource, fragmentDeclared⟩ := same .fragment (by decide)
  have valid := fault?_of_succeeds succeeds
  obtain ⟨vertex, fragment, vertexFound, fragmentFound, inputs, outputs⟩ :=
    s.sections.fault?_eq_none_iff.mp valid
  have validAgain : t.sections.assemble.fault? = none := by
    refine t.sections.fault?_eq_none_iff.mpr ⟨vertex, fragment, vertexSource.trans vertexFound,
      fragmentSource.trans fragmentFound, ?_, ?_⟩
    · exact vertexDeclared ▸ inputs
    · exact fragmentDeclared ▸ outputs
  obtain ⟨_, stages, layout, _⟩ := result_of_valid vertexFound fragmentFound valid
  obtain ⟨error, stagesAgain, layoutAgain, _⟩ := result_of_valid
    (vertexSource.trans vertexFound) (fragmentSource.trans fragmentFound) validAgain
  refine ⟨error, OrderedMap.ext ?_, ?_⟩
  · rw [stages, stagesAgain, vertexDeclared, fragmentDeclared]
  · rw [layout, layoutAgain, vertexDeclared]

theorem stages_of_result {vertex fragment : String}
    (vertexFound : s.sources.get? .vertex = some vertex)
    (fragmentFound : s.sources.get? .fragment = some fragment)
    (valid : s.sections.assemble.fault? = none)
    : ∃ first second,
        s.result.shader.stages.get? .vertex = some first
        ∧ s.result.shader.stages.get? .fragment = some second
        ∧ first.source = vertex
        ∧ second.source = fragment := by
  obtain ⟨_, stages, _⟩ := result_of_valid vertexFound fragmentFound valid
  let first := Stage.assemble .vertex vertex (s.declarations.getD .vertex [])
  let second := Stage.assemble .fragment fragment (s.declarations.getD .fragment [])
  refine ⟨{ first with inputs := Variable.arrange first.inputs }, second, ?_, ?_, rfl, rfl⟩
  all_goals
    rw [OrderedMap.get?, stages]
    rfl

end Scanner

open Scanner in
/-- Captured sources keep their meaning where they keep their tokens: if the source of each stage
can be read again, and no vertex block leaves a parameter list open, the sources of a build that
succeeds can be built again.
-/
theorem captured_sources_rebuild (text : String) (succeeds : (build {} text).error = none)
    (rereadable : ∀ name, name ≠ .common → Rereadable text name)
    (closed : ∀ span ∈ closedSpans text.toList .vertex, (upTo text.toList span.2).openLists = 0)
    : (build {} text).Rebuildable := by
  rw [build_of_scan (scan_unlimited text)] at succeeds ⊢
  have valid := fault?_of_succeeds succeeds
  obtain ⟨vertex, fragment, vertexFound, fragmentFound, _⟩ :=
    (ofText text).sections.fault?_eq_none_iff.mp valid
  have vertexFound : (ofText text).sources.get? .vertex = some vertex := vertexFound
  have fragmentFound : (ofText text).sources.get? .fragment = some fragment := fragmentFound
  obtain ⟨first, second, vertexStage, fragmentStage, firstSource, secondSource⟩ :=
    stages_of_result vertexFound fragmentFound valid
  obtain ⟨inVertex, vertexDeclared⟩ := (rereadable .vertex (by decide)).declarations vertexFound
  obtain ⟨inFragment, fragmentDeclared⟩ :=
    (rereadable .fragment (by decide)).declarations fragmentFound
  have lists := (rereadable .vertex (by decide)).openLists vertexFound closed
  obtain ⟨vertexAgain, fragmentAgain, vertexDeclaredAgain, fragmentDeclaredAgain⟩ :=
    collected_textOf (kept_source vertexFound) (kept_source fragmentFound) inVertex inFragment lists
  refine ⟨first, second, vertexStage, fragmentStage, ?_⟩
  rw [firstSource, secondSource, build_of_scan (scan_unlimited _)]
  apply result_of_sameStages succeeds
  intro name stage
  cases name with
  | common => exact absurd rfl stage
  | vertex => exact ⟨vertexAgain.trans vertexFound.symm,
      vertexDeclaredAgain.trans vertexDeclared.symm⟩
  | fragment => exact ⟨fragmentAgain.trans fragmentFound.symm,
      fragmentDeclaredAgain.trans fragmentDeclared.symm⟩

open Scanner in
/-- Witness: two blocks of one section, the first of them nested in braces and with a tab and a line
break, the second with a block of its own and a comment, and a section that leaves a parameter list
open.
-/
theorem captured_sources_rebuild_nested
    : let text :=
        "s\x7bvertex\x7b\n\tin \tvec3 a;\x7d\x7d\nvertex\x7bf()\x7bin x;\x7d// \x7d\n\x7dfragment\x7bout vec4 c;(\x7d"
      (build {} text).error = none
      ∧ (∀ name, name ≠ .common → Rereadable text name)
      ∧ (ofText text).sources.get? .vertex = some "in vec3 a; f()\x7bin x;\x7d// \x7d"
      ∧ (ofText text).sources.get? .fragment = some "out vec4 c;("
      ∧ (build {} text).Rebuildable := by
  intro text
  have succeeds : (build {} text).error = none := by decide +kernel
  have vertex : (ofText text).sources.get? .vertex = some "in vec3 a; f()\x7bin x;\x7d// \x7d" := by
    decide +kernel
  have fragment : (ofText text).sources.get? .fragment = some "out vec4 c;(" := by
    decide +kernel
  have rereadable : ∀ name, name ≠ .common → Rereadable text name := by
    intro name stage
    cases name with
    | common => exact absurd rfl stage
    | vertex =>
        refine ⟨⟨by decide +kernel, by decide +kernel⟩, by decide +kernel, ?_⟩
        intro source found
        cases vertex.symm.trans found
        simp only [innerTokens, Token.ofText_eq_scanning]
        decide +kernel
    | fragment =>
        refine ⟨⟨by decide +kernel, by decide +kernel⟩, by decide +kernel, ?_⟩
        intro source found
        cases fragment.symm.trans found
        simp only [innerTokens, Token.ofText_eq_scanning]
        decide +kernel
  exact ⟨succeeds, rereadable, vertex, fragment,
    captured_sources_rebuild text succeeds rereadable (by decide +kernel)⟩

/-- A comment in a captured source goes on to its end, since its line break is left out. -/
theorem captured_comment_swallows_rest
    : ¬∀ text, (build {} text).error = none → (build {} text).Rebuildable := by
  intro rebuildable
  obtain ⟨vertex, fragment, vertexFound, fragmentFound, succeeds, _⟩ :=
    rebuildable "vertex\x7b// c\nin vec3 a;\x7dfragment\x7bout vec4 c;\x7d" (by decide +kernel)
  have first
      : ((build {} "vertex\x7b// c\nin vec3 a;\x7dfragment\x7bout vec4 c;\x7d").shader.stages.get?
          .vertex).map Stage.source = some "// cin vec3 a;" := by
    decide +kernel
  have second
      : ((build {} "vertex\x7b// c\nin vec3 a;\x7dfragment\x7bout vec4 c;\x7d").shader.stages.get?
          .fragment).map Stage.source = some "out vec4 c;" := by
    decide +kernel
  rw [vertexFound, Option.map_some, Option.some.injEq] at first
  rw [fragmentFound, Option.map_some, Option.some.injEq] at second
  rw [first, second] at succeeds
  revert succeeds
  decide +kernel

end ShaderReflection
