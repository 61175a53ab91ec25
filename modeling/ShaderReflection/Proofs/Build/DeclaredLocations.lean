import ShaderReflection.Proofs.Printing.DeclaredVariable
import ShaderReflection.Proofs.Scanner.RecordedLines
import ShaderReflection.Proofs.Stage.ValidStages

/-! Locations from a text to its shader. The `layout` keyword that counts in a statement is the
first one with parameters, before the initializer. A location that this one gives is not lost: a
build without warnings has it.
-/

namespace ShaderReflection

-----------------------------------------------------------------------------------------
-- The location that a statement declares
-----------------------------------------------------------------------------------------

namespace Declaration

variable {keywords others : List Keyword} {type : DataType} {layout : Keyword}

/-- The locations that the `layout` keywords of a statement carry. -/
def carriedLocations (keywords : List Keyword) : List String :=
  keywords.filterMap fun k => if k.word = "layout" then k.parameters.get? "location" else none

/-- Whether a keyword names a qualifier and gives it parameters. -/
def specifies (qualifier : Qualifier) (k : Keyword) : Bool :=
  Qualifier.ofKeyword? k.word = some qualifier && !k.parameters.isEmpty

/-- The `layout` keyword that counts in a statement: the first one with parameters, before the
initializer. -/
def countedLayout? (keywords : List Keyword) : Option Keyword :=
  (beforeInitializer keywords).find? (specifies .layout)

/-- A qualifier has the parameters of the first keyword that gives it some. By induction from the
front on: a further keyword adds its parameters only if there are none yet.
-/
theorem get?_parametersOf (keywords : List Keyword) (qualifier : Qualifier)
    : (parametersOf keywords).get? qualifier
      = (keywords.find? (specifies qualifier)).map Keyword.parameters := by
  induction keywords using List.reverseRecOn with
  | nil => rfl
  | append_singleton earlier k ih =>
      rw [parametersOf, List.foldl_append, List.foldl_cons, List.foldl_nil, ← parametersOf,
        List.find?_append, List.find?_singleton, specifies]
      cases named : Qualifier.ofKeyword? k.word with
      | none => simp [ih]
      | some other =>
          cases given : k.parameters.isEmpty with
          | true => simp [ih]
          | false =>
              simp only [Bool.false_eq_true, if_false, OrderedMap.get?_insertIfNew]
              by_cases same : qualifier = other
              · subst same
                rw [if_pos rfl, ih]
                cases earlier.find? (specifies qualifier) <;> simp
              · simp [same, Ne.symm same, ih]

theorem keyword_of_ofKeyword? {word : String} {qualifier : Qualifier}
    (named : Qualifier.ofKeyword? word = some qualifier)
    : qualifier.keyword = word := by
  unfold Qualifier.ofKeyword? at named
  simpa using List.find?_some named

theorem specifies_iff {qualifier : Qualifier} {k : Keyword}
    : specifies qualifier k
      ↔ Qualifier.ofKeyword? k.word = some qualifier ∧ k.parameters.isEmpty = false := by
  simp [specifies]

/-- A keyword that names a type names no qualifier. -/
theorem ofKeyword?_eq_none_of_type {word : String} (typed : DataType.ofKeyword? word = some type)
    : Qualifier.ofKeyword? word = none := by
  cases named : Qualifier.ofKeyword? word with
  | none => rfl
  | some qualifier =>
      rw [← keyword_of_ofKeyword? named, qualifier.not_type] at typed
      cases typed

/-- Taking out the type leaves the keyword to be found that gives a qualifier its parameters, since
no type is a qualifier.
-/
theorem find?_of_takeType? (qualifier : Qualifier)
    (taken : takeType? keywords = some (type, others))
    : others.find? (specifies qualifier) = keywords.find? (specifies qualifier) := by
  obtain ⟨before, k, behind, rfl, rfl, _, isType⟩ := takeType?_split taken
  have noQualifier : ¬specifies qualifier k := by
    simp [specifies, ofKeyword?_eq_none_of_type isType]
  rw [List.find?_append, List.find?_append, List.find?_cons_of_neg noQualifier]

theorem locationText_of_countedLayout {reading : Reading} {value : String}
    (read : read? keywords = some reading) (counted : countedLayout? keywords = some layout)
    (carried : layout.parameters.get? "location" = some value)
    : reading.declaration.locationText = value := by
  unfold read? at read
  cases taken : takeType? (beforeInitializer keywords) with
  | none => simp [taken] at read
  | some found =>
      obtain ⟨type, others⟩ := found
      simp only [taken, Option.some.injEq] at read
      subst read
      have parameters : (parametersOf others).get? .layout = some layout.parameters := by
        rw [get?_parametersOf, find?_of_takeType? .layout taken, ← countedLayout?, counted]
        rfl
      simp only [locationText, parameter, OrderedMap.getD, parameters, Option.getD_some, carried]

theorem mem_carriedLocations {value : String} (counted : countedLayout? keywords = some layout)
    (carried : layout.parameters.get? "location" = some value)
    : value ∈ carriedLocations keywords := by
  have member := (List.takeWhile_sublist _).mem (List.mem_of_find?_eq_some counted)
  have specified : specifies .layout layout := List.find?_some counted
  have word : layout.word = "layout" :=
    (keyword_of_ofKeyword? (specifies_iff.mp specified).1).symm
  exact List.mem_filterMap.mpr ⟨layout, member, by rw [if_pos word, carried]⟩

end Declaration

-----------------------------------------------------------------------------------------
-- Variables of a built shader
-----------------------------------------------------------------------------------------

/-- The variables of a stage that have a role. -/
def Stage.variables (stage : Stage) : Role → List Variable
  | .input => stage.inputs
  | .output => stage.outputs
  | .uniform => stage.uniforms

theorem Stage.hasInvalidLocation_of_silent {kind : StageKind} {earlier : List String}
    {declarations : List Declaration} (silent : assemblyWarnings kind earlier declarations = [])
    : ∀ d ∈ declarations, d.hasInvalidLocation = false := by
  induction declarations generalizing earlier with
  | nil => simp
  | cons d rest ih =>
      rw [assemblyWarnings, List.append_eq_nil_iff] at silent
      intro other member
      rcases List.mem_cons.mp member with rfl | later
      · have valid := (List.append_eq_nil_iff.mp silent.1).1
        split at valid
        · cases valid
        · next invalid => simpa using invalid
      · exact ih silent.2 other later

namespace Scanner

open Declaration

/-- A declaration with a role becomes a variable of its stage in every build that succeeds, and its
location is valid if there are no warnings.
-/
theorem toVariable_mem_result {s : Scanner} (succeeds : s.result.error = none)
    (silent : s.result.warnings = #[]) {kind : StageKind} {name : Section}
    (staged : (kind, name) ∈ StageKind.pipeline) {d : Declaration}
    (declared : d ∈ s.declarations.getD name []) {role : Role} (routed : d.role? = some role)
    : d.hasInvalidLocation = false
      ∧ ∃ stage,
          s.result.shader.stages.get? kind = some stage ∧ d.toVariable ∈ stage.variables role := by
  have valid := fault?_of_succeeds succeeds
  obtain ⟨vertex, fragment, vertexClosed, fragmentClosed, _, _⟩ :=
    s.sections.fault?_eq_none_iff.mp valid
  obtain ⟨_, entries, _, warnings⟩ := result_of_valid vertexClosed fragmentClosed valid
  have member : d.toVariable ∈ variablesOf role (s.declarations.getD name []) :=
    List.mem_map.mpr ⟨d, by simp [declared, routed], rfl⟩
  have quiet : s.sections.assemblyWarnings = [] := by
    rw [warnings] at silent
    have listed := congrArg Array.toList silent
    rw [Array.toList_appendList, List.append_eq_nil_iff] at listed
    exact listed.2
  rw [Sections.assemblyWarnings_of_closed vertexClosed fragmentClosed, List.append_eq_nil_iff]
    at quiet
  simp only [StageKind.pipeline, List.mem_cons, Prod.mk.injEq, List.not_mem_nil, or_false]
    at staged
  simp only [OrderedMap.get?, entries]
  rcases staged with ⟨rfl, rfl⟩ | ⟨rfl, rfl⟩
  · refine ⟨Stage.hasInvalidLocation_of_silent quiet.1 d declared, _, rfl, ?_⟩
    cases role with
    | input => exact List.mem_mergeSort.mpr member
    | output => exact member
    | uniform => exact member
  · refine ⟨Stage.hasInvalidLocation_of_silent quiet.2 d declared, _, rfl, ?_⟩
    cases role <;> exact member

/-- No location is lost on the way into a shader that is built without warnings: if the `layout`
keyword that counts in a recorded statement carries one, the variable that the statement declares is
in its stage, at the location that is written.
-/
theorem counted_location_kept (text : String) (succeeds : (build {} text).error = none)
    (silent : (build {} text).warnings = #[]) {line : RecordedLine}
    (recorded : line ∈ recordedLines text.toList) {kind : StageKind}
    (staged : (kind, line.name) ∈ StageKind.pipeline) {role : Role}
    (routed : line.declaration.role? = some role) {layout : Keyword}
    (counted : countedLayout? line.keywords = some layout) {value : String}
    (carried : layout.parameters.get? "location" = some value) (given : value ≠ "")
    : value ∈ carriedLocations line.keywords
      ∧ Text.integer? value = some line.declaration.toVariable.location
      ∧ ∃ stage,
          (build {} text).shader.stages.get? kind = some stage
          ∧ line.declaration.toVariable ∈ stage.variables role := by
  rw [build_of_scan (scan_unlimited text)] at succeeds silent ⊢
  have declared : line.declaration ∈ (ofText text).declarations.getD line.name [] := by
    rw [declarations_ofText]
    exact RecordedLine.mem_declarationsOf recorded
  obtain ⟨valid, stage, found, member⟩ :=
    toVariable_mem_result succeeds silent staged declared routed
  obtain ⟨reading, read, same⟩ := read?_of_recorded recorded
  have written : line.declaration.locationText = value :=
    same ▸ locationText_of_countedLayout read counted carried
  refine ⟨mem_carriedLocations counted carried, ?_, stage, found, member⟩
  have denoted : (Text.integer? value).isSome := by
    simpa [hasInvalidLocation, written, given, Option.isSome_iff_ne_none] using valid
  obtain ⟨location, integer⟩ := Option.isSome_iff_exists.mp denoted
  have located : line.declaration.toVariable.location = location := by
    simp only [toVariable, Declaration.location, written, integer, Option.getD_some]
  rw [integer, located]

/-- Witness: of two locations that one declaration carries the first is kept. -/
theorem counted_location_kept_first
    : let text :=
        "vertex\x7blayout(location=3)layout(location=4)in vec3 a;\x7dfragment\x7bout vec4 c;\x7d"
      ∃ line ∈ recordedLines text.toList,
        carriedLocations line.keywords = ["3", "4"]
        ∧ Text.integer? "3" = some line.declaration.toVariable.location
        ∧ ∃ stage,
            (build {} text).shader.stages.get? .vertex = some stage
            ∧ line.declaration.toVariable ∈ stage.variables .input := by
  intro text
  obtain ⟨succeeds, silent⟩
      : (build {} text).error = none ∧ (build {} text).warnings = #[] := by
    decide +kernel
  have first
      : (recordedLines text.toList).head?.map (fun line =>
            (line.name, line.declaration.role?, carriedLocations line.keywords,
              (countedLayout? line.keywords).map (·.parameters.get? "location")))
        = some (.vertex, some .input, ["3", "4"], some (some "3")) := by
    decide +kernel
  obtain ⟨line, found, facts⟩ := Option.map_eq_some_iff.mp first
  simp only [Prod.mk.injEq] at facts
  obtain ⟨name, routed, locations, layouts⟩ := facts
  obtain ⟨layout, counted, carried⟩ := Option.map_eq_some_iff.mp layouts
  have recorded : line ∈ recordedLines text.toList := List.mem_of_mem_head? found
  have staged : (StageKind.vertex, line.name) ∈ StageKind.pipeline := by rw [name]; decide
  obtain ⟨_, integer, kept⟩ := counted_location_kept text succeeds silent recorded staged routed
    counted carried (by decide)
  exact ⟨line, recorded, locations, integer, kept⟩

/-- Whether every location that a `layout` of a recorded statement carries is kept: a build without
warnings has one of those that the statement carries.
-/
def KeepsLocations (text : String) : Prop :=
  (build {} text).error = none
  → (build {} text).warnings = #[]
  → ∀ line ∈ recordedLines text.toList,
      line.name = .vertex ∨ line.name = .fragment
      → line.declaration.role? ≠ none
      → carriedLocations line.keywords ≠ []
      → ∃ value ∈ carriedLocations line.keywords,
          Text.integer? value = some line.declaration.toVariable.location

instance (text : String) : Decidable (KeepsLocations text) :=
  inferInstanceAs (Decidable (_ → _ → ∀ line ∈ recordedLines text.toList, _ → _ → _ → _))

/-- Locations are lost behind `=`, where they belong to an initializer, behind another `layout` with
parameters, and without a value.
-/
theorem location_lost_outside_counted_layout
    : ¬KeepsLocations "vertex\x7bin vec3 a=layout(location=3);\x7dfragment\x7bout vec4 c;\x7d"
      ∧ ¬KeepsLocations
          "vertex\x7blayout(binding=0)layout(location=3)in vec3 a;\x7dfragment\x7bout vec4 c;\x7d"
      ∧ ¬KeepsLocations "vertex\x7blayout(location=)in vec3 a;\x7dfragment\x7bout vec4 c;\x7d" := by
  decide +kernel

end Scanner

end ShaderReflection
