import ShaderReflection.Proofs.Stage.Interface

/-! Sections that lack nothing, and the shader that is built from them. -/

namespace ShaderReflection

/-- Nothing is lacking exactly if both stages are closed, the vertex stage declares an input and the
fragment stage an output.
-/
theorem Sections.fault?_eq_none_iff (sections : Sections)
    : sections.assemble.fault? = none
      ↔ ∃ vertex fragment,
          sections.sources.get? .vertex = some vertex
          ∧ sections.sources.get? .fragment = some fragment
          ∧ Declaration.variablesOf .input (sections.declarations.getD .vertex []) ≠ []
          ∧ Declaration.variablesOf .output (sections.declarations.getD .fragment []) ≠ [] := by
  unfold StageMap.fault?
  rw [sections.get?_assemble .vertex .vertex (by decide),
    sections.get?_assemble .fragment .fragment (by decide)]
  cases vertex : sections.sources.get? .vertex with
  | none => simp
  | some vertexSource =>
      cases fragment : sections.sources.get? .fragment with
      | none =>
          simp only [Option.map_some, Option.map_none]
          split <;> simp
      | some fragmentSource =>
          simp only [Option.map_some, Stage.assemble]
          split
          · next noInputs => simp [List.isEmpty_iff.mp noInputs]
          · next inputs =>
              split
              · next noOutputs => simp [List.isEmpty_iff.mp noOutputs]
              · next outputs => simpa using And.intro inputs outputs

theorem Sections.stages_of_closed {sections : Sections} {vertex fragment : String}
    (vertexClosed : sections.sources.get? .vertex = some vertex)
    (fragmentClosed : sections.sources.get? .fragment = some fragment)
    : sections.stages
      = [(.vertex, vertex, sections.declarations.getD .vertex []),
          (.fragment, fragment, sections.declarations.getD .fragment [])] := by
  simp [stages, StageKind.pipeline, vertexClosed, fragmentClosed]

theorem Sections.assemblyWarnings_of_closed {sections : Sections} {vertex fragment : String}
    (vertexClosed : sections.sources.get? .vertex = some vertex)
    (fragmentClosed : sections.sources.get? .fragment = some fragment)
    : sections.assemblyWarnings
      = Stage.assemblyWarnings .vertex [] (sections.declarations.getD .vertex [])
        ++ Stage.assemblyWarnings .fragment [] (sections.declarations.getD .fragment []) := by
  rw [assemblyWarnings, stages_of_closed vertexClosed fragmentClosed]
  simp

/-- A build that succeeds has sections that lack nothing. -/
theorem Scanner.fault?_of_succeeds {s : Scanner} (succeeds : s.result.error = none)
    : s.sections.assemble.fault? = none := by
  cases fault : s.sections.assemble.fault? with
  | none => rfl
  | some e => simp [result, Sections.parse, StageMap.validate, fault] at succeeds

/-- The shader of sections that lack nothing: the assembled stages in pipeline order, but for the
vertex inputs, which stand in the order of the vertex record.
-/
theorem Scanner.result_of_valid {s : Scanner} {vertex fragment : String}
    (vertexClosed : s.sources.get? .vertex = some vertex)
    (fragmentClosed : s.sources.get? .fragment = some fragment)
    (valid : s.sections.assemble.fault? = none)
    : let stage := Stage.assemble .vertex vertex (s.declarations.getD .vertex [])
      s.result.error = none
      ∧ s.result.shader.stages.entries
        = [(.vertex, { stage with inputs := Variable.arrange stage.inputs }),
            (.fragment, .assemble .fragment fragment (s.declarations.getD .fragment []))]
      ∧ s.result.shader.layout = .pack (Variable.arrange stage.inputs)
      ∧ s.result.warnings = s.warnings ++ s.sections.assemblyWarnings := by
  intro stage
  have entries : s.sections.assemble.entries
      = [(.vertex, stage),
          (.fragment, .assemble .fragment fragment (s.declarations.getD .fragment []))] := by
    rw [Sections.entries_assemble, Sections.stages_of_closed vertexClosed fragmentClosed]
    rfl
  have found : s.sections.assemble.get? .vertex = some stage := by
    rw [OrderedMap.get?, entries]
    rfl
  have present : StageKind.vertex ∈ s.sections.assemble.keys := by
    simp [OrderedMap.keys, entries]
  simp only [result, Sections.parse, StageMap.validate, valid, Shader.ofStages,
    StageMap.arrangeInputs?, found, Option.map_some]
  refine ⟨trivial, ?_, trivial, trivial⟩
  rw [OrderedMap.entries_insert_of_mem present, entries]
  rfl

end ShaderReflection
