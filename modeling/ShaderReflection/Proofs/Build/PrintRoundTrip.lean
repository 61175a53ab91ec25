import Mathlib.Data.List.Duplicate
import ShaderReflection.Proofs.Printing.PrintedScan
import ShaderReflection.Proofs.Stage.ValidStages
import ShaderReflection.Proofs.Variable.StableOrder

/-! Building undoes printing: the shader of a printed text lists the variables that were printed. -/

namespace ShaderReflection

namespace DeclaredVariable

/-- The names are warned of that were declared before or are declared twice, by induction along the
declarations with the names before them.
-/
theorem mem_assemblyWarnings {kind : StageKind} {earlier : List String}
    {declared : List DeclaredVariable} {w : Warning}
    : w ∈ Stage.assemblyWarnings kind earlier (declared.map declaration)
      ↔ ∃ x,
          w = .duplicateName x kind
          ∧ ((x ∈ earlier ∧ x ∈ declared.map name) ∨ List.Duplicate x (declared.map name)) := by
  induction declared generalizing earlier with
  | nil => simp [Stage.assemblyWarnings]
  | cons d rest ih =>
      have named : d.declaration.name = d.name := rfl
      have here : d.declaration.interfaceWarnings kind earlier
          = if d.name ∈ earlier then [.duplicateName d.name kind] else [] := by
        simp [Declaration.interfaceWarnings, d.hasInvalidLocation_declaration, named,
          d.word.nonempty]
      rw [List.map_cons, Stage.assemblyWarnings, List.mem_append, here, ih, named, List.map_cons]
      simp only [List.duplicate_cons_iff, List.mem_cons]
      constructor
      · rintro (warned | ⟨x, rfl, ⟨rfl | before, among⟩ | twice⟩)
        · split at warned
          · next before =>
              exact ⟨d.name, List.mem_singleton.mp warned, Or.inl ⟨before, Or.inl rfl⟩⟩
          · cases warned
        · exact ⟨d.name, rfl, Or.inr (Or.inl ⟨rfl, among⟩)⟩
        · exact ⟨x, rfl, Or.inl ⟨before, Or.inr among⟩⟩
        · exact ⟨x, rfl, Or.inr (Or.inr twice)⟩
      · rintro ⟨x, rfl, ⟨before, rfl | among⟩ | ⟨rfl, among⟩ | twice⟩
        · exact Or.inl (by simp [before])
        · exact Or.inr ⟨x, rfl, Or.inl ⟨Or.inr before, among⟩⟩
        · exact Or.inr ⟨d.name, rfl, Or.inl ⟨Or.inl rfl, among⟩⟩
        · exact Or.inr ⟨x, rfl, Or.inr twice⟩

theorem variablesOf_ne_nil {role : Role} {declared : List DeclaredVariable}
    (declares : ∃ d ∈ declared, d.role = role)
    : variablesOf role declared ≠ [] := by
  obtain ⟨d, member, same⟩ := declares
  exact List.ne_nil_of_mem (List.mem_map.mpr ⟨d, by simp [member, same], rfl⟩)

end DeclaredVariable

open DeclaredVariable

/-- Building a printed shader succeeds and gives back the declared variables, each with its type,
its flat flag and its location: in the order of their declaration, but for the vertex inputs, which
are stably sorted. The only warnings are of names that are declared twice in a section.
-/
theorem build_print (vertex fragment : List DeclaredVariable)
    (someInput : ∃ d ∈ vertex, d.role = .input) (someOutput : ∃ d ∈ fragment, d.role = .output)
    : let built := build {} (Shader.print vertex fragment)
      built.isOk = true
      ∧ (∃ v f,
          built.shader.stages.entries = [(.vertex, v), (.fragment, f)]
          ∧ StablySorted Variable.sortKey v.inputs (variablesOf .input vertex)
          ∧ v.outputs = variablesOf .output vertex
          ∧ v.uniforms = variablesOf .uniform vertex
          ∧ f.inputs = variablesOf .input fragment
          ∧ f.outputs = variablesOf .output fragment
          ∧ f.uniforms = variablesOf .uniform fragment
          ∧ built.shader.layout = .pack v.inputs)
      ∧ ∀ w,
          w ∈ built.warnings
          ↔ (∃ x, List.Duplicate x (vertex.map name) ∧ w = .duplicateName x .vertex)
            ∨ ∃ x, List.Duplicate x (fragment.map name) ∧ w = .duplicateName x .fragment := by
  obtain ⟨s, vertexSource, fragmentSource, scanned, vertexDeclared, fragmentDeclared, vertexClosed,
    fragmentClosed, quiet⟩ := Scanner.scan_print vertex fragment
  have inVertex (role : Role)
      : Declaration.variablesOf role (s.sections.declarations.getD .vertex [])
        = variablesOf role vertex := by
    rw [Scanner.sections, vertexDeclared, variablesOf_declarations]
  have inFragment (role : Role)
      : Declaration.variablesOf role (s.sections.declarations.getD .fragment [])
        = variablesOf role fragment := by
    rw [Scanner.sections, fragmentDeclared, variablesOf_declarations]
  have valid : s.sections.assemble.fault? = none := by
    rw [Sections.fault?_eq_none_iff, inVertex, inFragment]
    exact ⟨vertexSource, fragmentSource, vertexClosed, fragmentClosed,
      variablesOf_ne_nil someInput, variablesOf_ne_nil someOutput⟩
  obtain ⟨error, entries, layout, warnings⟩ :=
    Scanner.result_of_valid vertexClosed fragmentClosed valid
  intro built
  have result : built = s.result := build_of_scan scanned
  rw [result]
  refine ⟨by simp [BuildResult.isOk, error], ⟨_, _, entries, ?_⟩, ?_⟩
  · exact ⟨inVertex .input ▸ Variable.stablySorted_arrange _, inVertex .output, inVertex .uniform,
      inFragment .input, inFragment .output, inFragment .uniform, layout⟩
  · intro w
    rw [warnings, quiet, Sections.assemblyWarnings_of_closed vertexClosed fragmentClosed,
      Scanner.sections, vertexDeclared, fragmentDeclared]
    simp [mem_assemblyWarnings, and_comm]

/-- Witness: inputs with a name that has a slash in it and with the name of a type, the one at a
location and flat, the other without a location, and an output at a negative location with a name
that is not ASCII.
-/
theorem build_print_unusual_names
    : let placed : DeclaredVariable := {
        role := .input
        type := .vec3
        flat := true
        location := some 2
        name := "a/b"
        typed := by decide
        writable := by rintro _ ⟨⟩; decide +kernel
        word := by decide +kernel
        unreserved := by decide }
      let unplaced : DeclaredVariable := {
        role := .input
        type := .mat4
        name := "vec4"
        typed := by decide
        writable := by rintro _ ⟨⟩
        word := by decide +kernel
        unreserved := by decide }
      let color : DeclaredVariable := {
        role := .output
        type := .vec4
        location := some (-7)
        name := "\u00e9/"
        typed := by decide
        writable := by rintro _ ⟨⟩; decide +kernel
        word := by decide +kernel
        unreserved := by decide }
      let text :=
        "vertex \x7b\nlayout(location = 2) flat in vec3 a/b;\nin mat4 vec4;\n\x7d\n"
          ++ "fragment \x7b\nlayout(location = -7) out vec4 \u00e9/;\n\x7d"
      Shader.print [placed, unplaced] [color] = text
      ∧ (build {} text).isOk = true
      ∧ ∃ v f,
          (build {} text).shader.stages.entries = [(.vertex, v), (.fragment, f)]
          ∧ StablySorted Variable.sortKey v.inputs
              [{ name := "a/b", type := .vec3, flat := true, location := 2 },
                { name := "vec4", type := .mat4 }]
          ∧ f.outputs = [{ name := "\u00e9/", type := .vec4, location := -7 }] := by
  intro placed unplaced color text
  have printed : Shader.print [placed, unplaced] [color] = text := by decide +kernel
  have built := build_print [placed, unplaced] [color] ⟨placed, by simp, rfl⟩
    ⟨color, by simp, rfl⟩
  rw [printed] at built
  obtain ⟨ok, ⟨v, f, entries, inputs, _, _, _, outputs, _, _⟩, _⟩ := built
  exact ⟨printed, ok, v, f, entries, inputs, outputs⟩

end ShaderReflection
