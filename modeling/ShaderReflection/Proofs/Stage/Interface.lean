import ShaderReflection.Build
import ShaderReflection.Proofs.OrderedMap.Entries

/-! The stages that sections assemble to, and their interfaces. Whether a build fails, and what its
interfaces and its vertex layout are, depends on which sections are closed and on what they declare,
not on their texts.
-/

namespace ShaderReflection

namespace Declaration

theorem role?_eq_input_iff (d : Declaration) : d.role? = some .input ↔ d.has .input = true := by
  unfold role?
  split
  · next isInput => simp [isInput]
  · next noInput =>
      simp only [noInput]
      split
      · simp
      · split <;> simp

theorem role?_eq_output_iff (d : Declaration)
    : d.role? = some .output ↔ d.has .output = true ∧ d.has .input = false := by
  unfold role?
  split
  · next isInput => simp [isInput]
  · next noInput =>
      split
      · next isOutput => simpa [isOutput] using noInput
      · next noOutput =>
          simp only [noOutput]
          split <;> simp

end Declaration

/-- A stage without its text. -/
def Stage.interface (stage : Stage) : Stage :=
  { stage with source := "" }

/-- Stages without their texts. -/
def StageMap.interfaces (stages : StageMap) : StageMap :=
  stages.mapValues Stage.interface

/-- Two outcomes of builds with the same error code, the same interfaces and the same layout. -/
structure BuildResult.SameInterface (r q : BuildResult) : Prop where
  code : r.code = q.code
  stages : r.shader.stages.interfaces = q.shader.stages.interfaces
  layout : r.shader.layout = q.shader.layout

namespace Sections

theorem entries_assemble (sections : Sections)
    : sections.assemble.entries
      = sections.stages.map fun stage => (stage.1, Stage.assemble stage.1 stage.2.1 stage.2.2) := by
  apply OrderedMap.entries_ofList
  simp only [stages, StageKind.pipeline, List.filterMap_cons, List.filterMap_nil]
  cases sections.sources.get? .vertex <;> cases sections.sources.get? .fragment <;> simp

theorem get?_assemble (sections : Sections) (kind : StageKind) (name : Section)
    (inPipeline : (kind, name) ∈ StageKind.pipeline)
    : sections.assemble.get? kind
      = (sections.sources.get? name).map fun source =>
          Stage.assemble kind source (sections.declarations.getD name []) := by
  rw [OrderedMap.get?, entries_assemble]
  simp only [StageKind.pipeline, List.mem_cons, Prod.mk.injEq, List.not_mem_nil, or_false]
    at inPipeline
  simp only [stages, StageKind.pipeline, List.filterMap_cons, List.filterMap_nil]
  rcases inPipeline with ⟨rfl, rfl⟩ | ⟨rfl, rfl⟩ <;>
    cases sections.sources.get? .vertex <;> cases sections.sources.get? .fragment <;> rfl

/-- The interfaces of the stages depend on the declarations of closed sections only. -/
theorem interfaces_assemble {sections others : Sections}
    (keys : sections.sources.keys = others.sources.keys)
    (declarations : sections.declarations = others.declarations)
    : sections.assemble.interfaces = others.assemble.interfaces := by
  have closed (name : Section)
      : (sections.sources.get? name).isSome = (others.sources.get? name).isSome := by
    rw [Bool.eq_iff_iff, OrderedMap.get?_isSome_iff, OrderedMap.get?_isSome_iff, keys]
  simp only [StageMap.interfaces, assemble, OrderedMap.mapValues_ofList, stages,
    declarations, List.map_filterMap]
  congr 2
  funext stage
  have same := closed stage.2
  cases here : sections.sources.get? stage.2 <;> cases there : others.sources.get? stage.2 <;>
    simp [here, there] at same ⊢
  rfl

end Sections

namespace StageMap

/-- What stages lack shows in their interfaces. -/
theorem fault?_interfaces (stages : StageMap) : stages.interfaces.fault? = stages.fault? := by
  unfold fault? interfaces
  rw [OrderedMap.get?_mapValues, OrderedMap.get?_mapValues]
  cases stages.get? .vertex with
  | none => rfl
  | some vertex => cases stages.get? .fragment <;> rfl

theorem arrangeInputs?_interfaces (stages : StageMap)
    : stages.interfaces.arrangeInputs?
      = stages.arrangeInputs?.map fun arranged => (arranged.1.interfaces, arranged.2) := by
  unfold arrangeInputs? interfaces
  rw [OrderedMap.get?_mapValues]
  cases stages.get? .vertex with
  | none => rfl
  | some vertex =>
      simp only [Option.map_some, OrderedMap.mapValues_insert]
      rfl

end StageMap

theorem Shader.ofStages_interfaces {stages others : StageMap} (common otherCommon : String)
    (same : stages.interfaces = others.interfaces)
    : (Shader.ofStages stages common).stages.interfaces
        = (Shader.ofStages others otherCommon).stages.interfaces
      ∧ (Shader.ofStages stages common).layout = (Shader.ofStages others otherCommon).layout := by
  have arranged := stages.arrangeInputs?_interfaces
  rw [same, others.arrangeInputs?_interfaces] at arranged
  unfold Shader.ofStages
  cases here : stages.arrangeInputs? <;> cases there : others.arrangeInputs? <;>
    simp only [here, there, Option.map_none, Option.map_some, reduceCtorEq, Option.some.injEq,
      Prod.mk.injEq] at arranged ⊢
  · exact ⟨same, trivial⟩
  · exact ⟨arranged.1.symm, arranged.2.symm⟩

/-- Scans that closed the same sections and collected the same declarations build alike. -/
theorem Scanner.result_sameInterface {s t : Scanner} (keys : s.sources.keys = t.sources.keys)
    (declarations : s.declarations = t.declarations)
    : s.result.SameInterface t.result := by
  have same : s.sections.assemble.interfaces = t.sections.assemble.interfaces :=
    Sections.interfaces_assemble keys declarations
  have fault : s.sections.assemble.fault? = t.sections.assemble.fault? := by
    rw [← StageMap.fault?_interfaces, same, StageMap.fault?_interfaces]
  simp only [Scanner.result, Sections.parse, StageMap.validate, fault]
  cases t.sections.assemble.fault? with
  | some e => exact ⟨rfl, rfl, rfl⟩
  | none =>
      obtain ⟨stages, layout⟩ := Shader.ofStages_interfaces (s.sources.getD .common "")
        (t.sources.getD .common "") same
      exact ⟨rfl, stages, layout⟩

theorem build_of_scan {limits : Limits} {text : String} {s : Scanner}
    (scanned : ({} : Scanner).scan limits text = .ok s)
    : build limits text = s.result := by
  rw [build, scanned]

end ShaderReflection
