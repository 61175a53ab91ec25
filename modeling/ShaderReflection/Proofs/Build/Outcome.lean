import ShaderReflection.Proofs.Build.CheckedLookup
import ShaderReflection.Proofs.Build.WrittenReport
import ShaderReflection.Proofs.Stage.ValidStages

/-! The two outcomes of a build, and which sections and declarations decide between them. -/

namespace ShaderReflection

/-- A build that succeeded: both stages in pipeline order, each with the variables that it must
have, and a layout with an attribute for each vertex input.
-/
structure BuildResult.Succeeded (r : BuildResult) : Prop where
  error : r.error = none
  reports : r.reports = []
  stages
    : ∃ vertex fragment,
        r.shader.stages.entries = [(.vertex, vertex), (.fragment, fragment)]
        ∧ vertex.kind = .vertex
        ∧ fragment.kind = .fragment
        ∧ vertex.inputs ≠ []
        ∧ fragment.outputs ≠ []
        ∧ r.shader.layout.attributes.map (fun a => (a.name, a.type, a.location))
          = vertex.inputs.map fun v => (v.name, v.type, v.location)

/-- A build that failed: one report, and the shader without stages. -/
structure BuildResult.Failed (r : BuildResult) : Prop where
  code : 1 ≤ r.code ∧ r.code ≤ 5
  reports : r.reports.length = 1
  shader : r.shader = {}

/-- The number of the first thing that sections lack, zero if they lack nothing. -/
def Sections.failureCode (sections : Sections) : Nat :=
  if .vertex ∉ sections.sources.keys then 1
  else if ∀ d ∈ sections.declarations.getD .vertex [], d.has .input = false then 2
  else if .fragment ∉ sections.sources.keys then 3
  else if ∀ d ∈ sections.declarations.getD .fragment [],
      ¬(d.has .output = true ∧ d.has .input = false) then 4
  else 0

namespace Declaration

theorem variablesOf_isEmpty_iff (role : Role) (declarations : List Declaration)
    : (variablesOf role declarations).isEmpty ↔ ∀ d ∈ declarations, d.role? ≠ some role := by
  simp [variablesOf]

end Declaration

/-- What stages lack is what their sections lack, by the four checks in turn. -/
theorem Sections.code_fault? (sections : Sections)
    : (sections.assemble.fault?.map BuildError.code).getD 0 = sections.failureCode := by
  have missing {name : Section} (absent : sections.sources.get? name = none)
      : name ∉ sections.sources.keys :=
    (OrderedMap.get?_eq_none_iff _ name).mp absent
  have present {name : Section} {source : String}
      (found : sections.sources.get? name = some source)
      : ¬name ∉ sections.sources.keys := by
    rw [← OrderedMap.get?_eq_none_iff, found]
    simp
  have noInputs (source : String)
      : (Stage.assemble .vertex source (sections.declarations.getD .vertex [])).inputs.isEmpty
        ↔ ∀ d ∈ sections.declarations.getD .vertex [], d.has .input = false := by
    simp only [Stage.assemble, Declaration.variablesOf_isEmpty_iff, ne_eq,
      Declaration.role?_eq_input_iff, Bool.not_eq_true]
  have noOutputs (source : String)
      : (Stage.assemble .fragment source (sections.declarations.getD .fragment [])).outputs.isEmpty
        ↔ ∀ d ∈ sections.declarations.getD .fragment [],
            ¬(d.has .output = true ∧ d.has .input = false) := by
    simp only [Stage.assemble, Declaration.variablesOf_isEmpty_iff, ne_eq,
      Declaration.role?_eq_output_iff]
  have vertexStage := sections.get?_assemble .vertex .vertex (by decide)
  have fragmentStage := sections.get?_assemble .fragment .fragment (by decide)
  unfold StageMap.fault? failureCode
  cases vertex : sections.sources.get? .vertex with
  | none =>
      rw [vertexStage, vertex, if_pos (missing vertex)]
      rfl
  | some source =>
      rw [vertexStage, vertex, if_neg (present vertex)]
      simp only [Option.map_some, noInputs]
      split
      · rfl
      · cases fragment : sections.sources.get? .fragment with
        | none =>
            rw [fragmentStage, fragment, if_pos (missing fragment)]
            rfl
        | some source =>
            rw [fragmentStage, fragment, if_neg (present fragment)]
            simp only [Option.map_some, noOutputs]
            split <;> rfl

/-- Packed variables keep their names, types and locations, by induction along them. -/
theorem VertexLayout.packFrom_variables (offset : Int) (inputs : List Variable)
    : (packFrom offset inputs).map (fun a => (a.name, a.type, a.location))
      = inputs.map fun v => (v.name, v.type, v.location) := by
  induction inputs generalizing offset with
  | nil => rfl
  | cons v rest ih => simp [packFrom, ih]

theorem Variable.arrange_ne_nil {inputs : List Variable} (some : inputs ≠ [])
    : arrange inputs ≠ [] := by
  intro empty
  apply some
  have length : (arrange inputs).length = inputs.length := List.length_mergeSort inputs
  rw [empty] at length
  exact List.length_eq_zero_iff.mp length.symm

theorem Scanner.result_succeeded {s : Scanner} (valid : s.sections.assemble.fault? = none)
    : s.result.Succeeded := by
  obtain ⟨vertex, fragment, vertexClosed, fragmentClosed, inputs, outputs⟩ :=
    s.sections.fault?_eq_none_iff.mp valid
  obtain ⟨error, entries, layout, _⟩ := result_of_valid vertexClosed fragmentClosed valid
  refine ⟨error, by simp [BuildResult.reports, error], ?_⟩
  refine ⟨_, _, entries, rfl, rfl, Variable.arrange_ne_nil inputs, outputs, ?_⟩
  rw [layout]
  exact VertexLayout.packFrom_variables 0 _

theorem BuildError.code_bounds (e : BuildError) : 1 ≤ e.code ∧ e.code ≤ 5 := by
  cases e <;> simp [code]

theorem BuildResult.Failed.of_error {r : BuildResult} {e : BuildError} (error : r.error = some e)
    (shader : r.shader = {})
    : r.Failed where
  code := by
    simp only [BuildResult.code, error, Option.map_some, Option.getD_some]
    exact e.code_bounds
  reports := by simp [BuildResult.reports, error]
  shader := shader

/-- No build both succeeds and fails, since only a failure is reported. -/
theorem BuildResult.Succeeded.not_failed {r : BuildResult} (succeeded : r.Succeeded)
    : ¬r.Failed := by
  intro failed
  have reported := failed.reports
  simp [succeeded.reports] at reported

theorem Scanner.result_failed {s : Scanner} {e : BuildError}
    (invalid : s.sections.assemble.fault? = some e)
    : s.result.Failed := by
  apply BuildResult.Failed.of_error (e := e)
  all_goals simp only [result, Sections.parse, StageMap.validate, invalid]

theorem Scanner.code_result (s : Scanner) : s.result.code = s.sections.failureCode := by
  rw [← s.sections.code_fault?]
  cases valid : s.sections.assemble.fault? <;>
    simp only [result, Sections.parse, StageMap.validate, valid, BuildResult.code]

/-- Under limits that can be written every build gets through all its look-ups, has an outcome, and
either succeeds or fails. Unless a limit stops the scan, the number of the failure says what the
sections lack.
-/
theorem build_outcome {limits : Limits} (writable : limits.Writable) (text : String)
    : build? limits text = .ok (build limits text)
      ∧ writtenBuild limits text = .ok (build limits text)
      ∧ (((build limits text).Succeeded ∧ ¬(build limits text).Failed)
        ∨ ((build limits text).Failed ∧ ¬(build limits text).Succeeded))
      ∧ match ({} : Scanner).scan limits text with
        | .error _ => (build limits text).code = 5
        | .ok s =>
            (∀ name ∈ s.sources.keys, name ∈ s.declarations.keys)
            ∧ (build limits text).code = s.sections.failureCode := by
  refine ⟨build?_eq limits text, writable.writtenBuild_eq text, ?_⟩
  have outcome := (Scanner.resting_start limits).scan text
  have exclusive {r : BuildResult} (decided : r.Succeeded ∨ r.Failed)
      : (r.Succeeded ∧ ¬r.Failed) ∨ (r.Failed ∧ ¬r.Succeeded) := by
    rcases decided with succeeded | failed
    · exact Or.inl ⟨succeeded, succeeded.not_failed⟩
    · exact Or.inr ⟨failed, fun succeeded => succeeded.not_failed failed⟩
  cases scanned : ({} : Scanner).scan limits text with
  | error stopped =>
      have built
          : build limits text
            = { error := some (.overflow stopped.overflow)
                warnings := stopped.scanner.warnings } := by
        rw [build, scanned]
      rw [built]
      exact ⟨exclusive (Or.inr (.of_error rfl rfl)), rfl⟩
  | ok s =>
      rw [scanned] at outcome
      have resting : s.Resting limits := outcome
      rw [build_of_scan scanned]
      refine ⟨exclusive ?_, resting.coherent.closed, s.code_result⟩
      cases valid : s.sections.assemble.fault? with
      | none => exact Or.inl (Scanner.result_succeeded valid)
      | some e => exact Or.inr (Scanner.result_failed valid)

/-- Witness: limits that are exactly reached, so that the build succeeds, and a lower one on the
sources of sections, which stops the build at the last brace.
-/
theorem build_outcome_limited
    : let text := "vertex\x7bin vec3 a;\x7dfragment\x7bout vec4 c;\x7d"
      let limits : Limits := { word := some 8, source := some 12 }
      let tight : Limits := { word := some 8, source := some 11 }
      limits.Writable
      ∧ tight.Writable
      ∧ writtenBuild limits text = .ok (build limits text)
      ∧ (build limits text).Succeeded
      ∧ writtenBuild tight text = .ok (build tight text)
      ∧ (build tight text).Failed
      ∧ (build tight text).code = 5 := by
  intro text limits tight
  have writable : limits.Writable := by constructor <;> rintro _ ⟨⟩ <;> decide +kernel
  have tightWritable : tight.Writable := by constructor <;> rintro _ ⟨⟩ <;> decide +kernel
  have through : (build limits text).code = 0 := by decide +kernel
  have stopped : (build tight text).code = 5 := by decide +kernel
  obtain ⟨_, written, outcome, _⟩ := build_outcome writable text
  obtain ⟨_, tightWritten, tightOutcome, _⟩ := build_outcome tightWritable text
  refine ⟨writable, tightWritable, written, ?_, tightWritten, ?_, stopped⟩
  · rcases outcome with ⟨succeeded, _⟩ | ⟨failed, _⟩
    · exact succeeded
    · exact absurd (through ▸ failed.code.1) (by decide)
  · rcases tightOutcome with ⟨succeeded, _⟩ | ⟨failed, _⟩
    · rw [BuildResult.code, succeeded.error] at stopped
      cases stopped
    · exact failed

/-- A limit with too many digits leaves the build that it stops without an outcome: ten to the power
of 4300, below zero, as the limit on the sources of sections.
-/
theorem unwritable_limit_without_outcome
    : let limits : Limits := { source := some (-(Nat.pow 10 4300 : Nat)) }
      writtenBuild limits "vertex\x7ba\x7d" = .error Text.tooLongMessage :=
  writtenBuild_of_isBrokenOff (by decide +kernel)

end ShaderReflection
