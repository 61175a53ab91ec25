import ShaderReflection.Proofs.Build.LimitedBuild
import ShaderReflection.Proofs.RecordFormat.Tiling

/-! The record type of the vertex layout of a built shader. Every input has a type, so there is a
record type unless two inputs have the same name; and that is warned of, as is an input without a
name.
-/

namespace ShaderReflection

theorem Declaration.type_of_read? {keywords : List Keyword} {reading : Reading}
    (read : read? keywords = some reading)
    : reading.declaration.type ≠ .untyped := by
  unfold read? at read
  cases taken : takeType? (beforeInitializer keywords) with
  | none => simp [taken] at read
  | some found =>
      simp only [taken, Option.some.injEq] at read
      subst read
      exact (takeType?_eq_some taken).1

/-- Without warnings the named declarations of a stage have different names, by induction along
them.
-/
theorem Stage.nodup_of_silent {kind : StageKind} {earlier : List String}
    {declarations : List Declaration} (silent : assemblyWarnings kind earlier declarations = [])
    (named : ∀ d ∈ declarations, d.name ≠ "")
    : (declarations.map Declaration.name).Nodup ∧ ∀ d ∈ declarations, d.name ∉ earlier := by
  induction declarations generalizing earlier with
  | nil => simp
  | cons d rest ih =>
      rw [assemblyWarnings, List.append_eq_nil_iff] at silent
      obtain ⟨here, later⟩ := silent
      obtain ⟨distinct, apart⟩ := ih later fun e member => named e (List.mem_cons_of_mem d member)
      have fresh : d.name ∉ earlier := by
        have noDuplicate := (List.append_eq_nil_iff.mp here).2
        simpa [named d List.mem_cons_self] using noDuplicate
      refine ⟨?_, ?_⟩
      · rw [List.map_cons, List.nodup_cons]
        refine ⟨?_, distinct⟩
        intro again
        obtain ⟨e, member, same⟩ := List.mem_map.mp again
        exact apart e member (same ▸ List.mem_cons_self)
      · intro e member
        rcases List.mem_cons.mp member with rfl | behind
        · exact fresh
        · exact fun known => apart e behind (List.mem_cons_of_mem d.name known)

namespace Scanner

/-- The variables of declarations in record order have the names of some of the declarations. -/
theorem arrange_names_subperm (role : Role) (declarations : List Declaration)
    : ∃ names : List String,
        names.Sublist (declarations.map Declaration.name)
        ∧ ((Variable.arrange (Declaration.variablesOf role declarations)).map Variable.name).Perm
            names := by
  refine ⟨(declarations.filter fun d => d.role? = some role).map Declaration.name, ?_, ?_⟩
  · exact List.filter_sublist.map Declaration.name
  · have arranged := (List.mergeSort_perm (Declaration.variablesOf role declarations)
      Variable.precedes).map Variable.name
    rw [Declaration.variablesOf, List.map_map] at arranged
    exact arranged

/-- The vertex stage and the layout that a successful outcome has. -/
theorem vertex_of_result {s : Scanner} (succeeds : s.result.error = none)
    : let declared := s.declarations.getD .vertex []
      let inputs := Variable.arrange (Declaration.variablesOf .input declared)
      (∃ vertex, s.result.shader.stages.get? .vertex = some vertex ∧ vertex.inputs = inputs)
      ∧ inputs ≠ []
      ∧ s.result.shader.layout = .pack inputs
      ∧ (s.result.warnings = #[]
          → s.warnings = #[] ∧ Stage.assemblyWarnings .vertex [] declared = []) := by
  intro declared inputs
  have valid := fault?_of_succeeds succeeds
  obtain ⟨vertex, fragment, vertexClosed, fragmentClosed, nonempty, _⟩ :=
    s.sections.fault?_eq_none_iff.mp valid
  obtain ⟨_, entries, layout, warnings⟩ := result_of_valid vertexClosed fragmentClosed valid
  let stage := Stage.assemble .vertex vertex declared
  refine ⟨⟨{ stage with inputs }, ?_, rfl⟩, Variable.arrange_ne_nil nonempty, layout, ?_⟩
  · rw [OrderedMap.get?, entries]
    rfl
  · intro quiet
    rw [warnings, Sections.assemblyWarnings_of_closed vertexClosed fragmentClosed] at quiet
    have listed := congrArg Array.toList quiet
    rw [Array.toList_appendList, List.append_eq_nil_iff, List.append_eq_nil_iff] at listed
    exact ⟨Array.toList_eq_nil_iff.mp listed.1, listed.2.1⟩

theorem typed_ofText (text : String) (name : Section)
    : ∀ d ∈ (ofText text).declarations.getD name [], d.type ≠ .untyped := by
  intro d declared
  rw [declarations_ofText] at declared
  obtain ⟨line, member, rfl⟩ := List.mem_map.mp declared
  obtain ⟨reading, read, same⟩ := read?_of_recorded (List.mem_filter.mp member).1
  exact same ▸ Declaration.type_of_read? read

end Scanner

open Scanner in
/-- Whatever makes record types, if it accepts what is admissible, then the vertex layout of a build
that succeeds, with a stride that fits, has a record type unless two inputs have the same name, and
then that is the error. The record holds the attributes and nothing else. A build without warnings
always has one.
-/
theorem vertex_record_tiled {ε : Type} {construct : RecordFormat → Except ε RecordFormat}
    (accepts : RecordFormat.Accepts construct) (limits : Limits) (text : String)
    (succeeds : (build limits text).error = none)
    (fits : (build limits text).shader.layout.stride ≤ 2147483647)
    : ∃ vertex,
        (build limits text).shader.stages.get? .vertex = some vertex
        ∧ let record := (build limits text).shader.layout.record construct
          ((∃ e, record = .error e) ↔ ¬(vertex.inputs.map Variable.name).Nodup)
          ∧ (∀ e, record = .error e → ∃ name, e = .duplicateName name)
          ∧ (∀ format, record = .ok format → format.Holds (build limits text).shader.layout)
          ∧ ((build limits text).warnings = #[] → ∃ format, record = .ok format) := by
  have same : build limits text = build {} text := by
    apply build_eq_unlimited
    simp [BuildResult.code, succeeds]
  rw [same, build_of_scan (scan_unlimited text)] at succeeds fits ⊢
  obtain ⟨⟨vertex, found, stageInputs⟩, nonempty, layout, quiet⟩ := vertex_of_result succeeds
  generalize declared : (ofText text).declarations.getD .vertex [] = declarations
    at stageInputs nonempty layout quiet
  generalize arranged : Variable.arrange (Declaration.variablesOf .input declarations) = inputs
    at stageInputs nonempty layout
  have typed : ∀ v ∈ inputs, v.type ≠ .untyped := by
    intro v member
    rw [← arranged, Variable.arrange, List.mem_mergeSort, Declaration.variablesOf] at member
    obtain ⟨d, among, rfl⟩ := List.mem_map.mp member
    exact typed_ofText text .vertex d (declared ▸ (List.mem_filter.mp among).1)
  have names : (VertexLayout.pack inputs).attributes.map Attribute.name
      = inputs.map Variable.name := by
    have kept := congrArg (List.map Prod.fst) (VertexLayout.packFrom_variables 0 inputs)
    rw [List.map_map, List.map_map] at kept
    exact kept
  refine ⟨vertex, found, ?_⟩
  rw [layout] at fits ⊢
  rw [stageInputs, ← names]
  by_cases distinct : ((VertexLayout.pack inputs).attributes.map Attribute.name).Nodup
  · obtain ⟨format, accepted, holds⟩ :=
      VertexLayout.record_pack_distinct accepts nonempty typed fits distinct
    rw [accepted]
    refine ⟨by simp [distinct], by simp, ?_, fun _ => ⟨format, rfl⟩⟩
    rintro _ ⟨⟩
    exact holds
  · obtain ⟨name, refused⟩ := @VertexLayout.record_repeated _ construct _ distinct
    rw [refused]
    refine ⟨by simp [distinct], by simp, by simp, ?_⟩
    intro silent
    -- Without warnings every declaration has a name and no name occurs twice.
    obtain ⟨scanQuiet, stageQuiet⟩ := quiet silent
    have named := named_of_quiet scanQuiet .vertex
    rw [declared] at named
    obtain ⟨nodup, _⟩ := Stage.nodup_of_silent stageQuiet named
    obtain ⟨_, sublist, perm⟩ := arrange_names_subperm .input declarations
    rw [arranged] at perm
    rw [names] at distinct
    exact absurd (perm.nodup_iff.mpr (sublist.nodup nodup)) distinct

open Scanner in
/-- Witness: a constructor with sizes of a fixed width, a matrix alone under a limit that is nearly
reached, and two inputs that have the same name because they have none.
-/
theorem vertex_record_tiled_unnamed
    : let limits : Limits := { word := some 9 }
      let text := "vertex\x7blayout(location=1)in mat3 m;\x7dfragment\x7bout vec4 c;\x7d"
      let unnamed := "vertex\x7bin vec3;in float;\x7dfragment\x7bout vec4 c;\x7d"
      RecordFormat.Accepts RecordFormat.construct
      ∧ (∃ format,
        RecordFormat.ofLayout (build limits text).shader.layout = .ok format
        ∧ format.Holds (build limits text).shader.layout
        ∧ format.size = 36)
      ∧ ∃ name,
          RecordFormat.ofLayout (build {} unnamed).shader.layout = .error (.duplicateName name) := by
  intro limits text unnamed
  obtain ⟨succeeds, stride, silent⟩
      : (build limits text).error = none
        ∧ (build limits text).shader.layout.stride = 36
        ∧ (build limits text).warnings = #[] := by
    decide +kernel
  have unnamedSucceeds : (build {} unnamed).error = none := by decide +kernel
  have built : build {} unnamed = (ofText unnamed).result := build_of_scan (scan_unlimited unnamed)
  obtain ⟨⟨vertex, found, inputs⟩, _, layout, _⟩ := vertex_of_result (built ▸ unnamedSucceeds)
  -- The two inputs without a name are in record order already.
  have sorted
      : (Declaration.variablesOf .input
          ((ofText unnamed).declarations.getD .vertex [])).Pairwise
          fun v w => Variable.precedes v w := by
    decide +kernel
  rw [Variable.arrange, List.mergeSort_of_pairwise sorted] at inputs layout
  have unnamedStride : (build {} unnamed).shader.layout.stride = 16 := by
    rw [built, layout]
    decide +kernel
  have names : vertex.inputs.map Variable.name = ["", ""] := by
    rw [inputs]
    decide +kernel
  obtain ⟨_, _, _, _, holds, quiet⟩ :=
    vertex_record_tiled RecordFormat.accepts_construct limits text succeeds
      (by rw [stride]; decide)
  obtain ⟨_, same, refused, cause, _⟩ :=
    vertex_record_tiled RecordFormat.accepts_construct {} unnamed unnamedSucceeds
      (by rw [unnamedStride]; decide)
  rw [built] at same
  cases found.symm.trans same
  obtain ⟨format, accepted⟩ := quiet silent
  refine ⟨RecordFormat.accepts_construct, ⟨format, accepted, holds format accepted, ?_⟩, ?_⟩
  · exact (holds format accepted).size.trans stride
  · obtain ⟨e, error⟩ := refused.mpr (by simp [names])
    obtain ⟨name, rfl⟩ := cause e error
    exact ⟨name, error⟩

end ShaderReflection
