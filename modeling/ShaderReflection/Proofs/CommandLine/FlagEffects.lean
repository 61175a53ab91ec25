import Mathlib
import ShaderReflection.CommandLine.Run
import ShaderReflection.Files.Tree
import ShaderReflection.Proofs.CommandLine.AddedFlags
import ShaderReflection.Proofs.Reflection.ReadBack
import ShaderReflection.Proofs.Text.DecimalRoundTrip

/-! Flags change only what they name. A strict run is a gate: it lets the outcome through or turns
it into a failure with one line more. A run without sources is a filter on the reflection
document.
-/

namespace ShaderReflection

-----------------------------------------------------------------------------------------
-- Documents without the sources of stages
-----------------------------------------------------------------------------------------

namespace Json.Value

/-- An object without the members of a name. -/
def eraseMember (name : String) : Value → Value
  | .object members => .object (members.filter fun member => member.1 ≠ name)
  | other => other

/-- An object with a function applied to the value of each member. -/
def mapMembers (f : String → Value → Value) : Value → Value
  | .object members => .object (members.map fun member => (member.1, f member.1 member.2))
  | other => other

/-- A reflection document without the source of each stage. -/
def withoutStageSources : Value → Value :=
  mapMembers fun name value =>
    if name = "stages" then value.mapMembers fun _ stage => stage.eraseMember "source" else value

end Json.Value

theorem Stage.eraseMember_reflect (stage : Stage) (includeSource : Bool)
    : (stage.reflect includeSource).eraseMember "source" = stage.reflect false := by
  cases includeSource <;> rfl

/-- Without the sources of its stages a reflection document is the one that never had them. -/
theorem Shader.withoutStageSources_reflect (shader : Shader) (sourceName : String)
    (includeSource : Bool)
    : (shader.reflect sourceName includeSource).withoutStageSources
      = shader.reflect sourceName false := by
  simp [reflect, Json.Value.withoutStageSources, Json.Value.mapMembers, Function.comp_def,
    Stage.eraseMember_reflect]

theorem Shader.reflectionText_ne_empty (shader : Shader) (sourceName : String)
    (includeSource : Bool)
    : shader.reflectionText sourceName includeSource ≠ "" := by
  obtain ⟨_, document, written, _⟩ := shader.reflectionText_eq sourceName includeSource
  rw [written]
  intro empty
  simpa using congrArg String.toList empty

namespace CommandLine

variable {settings : Settings} {limits : Limits} {result : BuildResult} {sourceName : String}

-----------------------------------------------------------------------------------------
-- The three outcomes of a run on a file that can be read
-----------------------------------------------------------------------------------------

/-- The limits that settings give are numbers, where they are given. -/
structure Settings.Limited (settings : Settings) (limits : Limits) : Prop where
  word : settings.wordLimit = limits.word.map .number
  source : settings.sourceLimit = limits.source.map .number

theorem Settings.Limited.limits_eq (h : settings.Limited limits) : settings.limits = limits := by
  have numbers (limit : Option Int)
      : (limit.map LimitValue.number).map LimitValue.effective = limit := by
    cases limit <;> rfl
  rw [Settings.limits, h.word, h.source, numbers, numbers]

/-- A limit that is a number can be compared. -/
theorem Settings.Limited.comparable (h : settings.Limited limits) (e : BuildError)
    : settings.isIncomparable e = false := by
  have number (limit : Option Int) : limit.map LimitValue.number ≠ some .blank := by
    cases limit <;> simp
  unfold Settings.isIncomparable
  split
  · simp [h.word, number]
  · simp [h.source, number]
  · rfl

theorem Settings.Limited.outcomeOf_failed (h : settings.Limited limits) {e : BuildError}
    (failed : result.error = some e)
    : settings.outcomeOf sourceName result
      = { ending := .exit e.code
          stderr := warningText result.warnings ++ "Error: " ++ e.report ++ "\n" } := by
  simp only [Settings.outcomeOf, failed, h.comparable e, Bool.false_eq_true, if_false]

theorem Settings.outcomeOf_rejected (settings : Settings) (ok : result.error = none)
    (rejected : settings.strict = true ∧ result.warnings ≠ #[])
    : settings.outcomeOf sourceName result
      = { ending := .exit 1
          stderr := warningText result.warnings ++ "Error: " ++ toString result.warnings.size
            ++ " warning(s) with --strict\n" } := by
  simp [Settings.outcomeOf, ok, rejected]

theorem Settings.outcomeOf_accepted (settings : Settings) (ok : result.error = none)
    (accepted : ¬ (settings.strict = true ∧ result.warnings ≠ #[]))
    : settings.outcomeOf sourceName result
      = { ending := .exit 0
          stdout := result.shader.reflectionText sourceName (!settings.noSource)
          stderr := warningText result.warnings } := by
  have gate : (settings.strict && !result.warnings.isEmpty) = false := by
    cases strict : settings.strict with
    | false => rfl
    | true => simpa [strict] using accepted
  simp only [Settings.outcomeOf, ok, gate, Bool.false_eq_true, if_false]

/-- An outcome tells how a build went: it shows a document and success if the build succeeded and
its warnings are not held against it, and otherwise nothing but a failure.
-/
structure Outcome.Tells (outcome : Outcome) (settings : Settings) (sourceName : String)
    (result : BuildResult) : Prop where
  shows
    : outcome.stdout ≠ ""
        ↔ result.isOk ∧ ¬ (settings.strict = true ∧ result.warnings ≠ #[])
  document
    : outcome.stdout ≠ ""
        → outcome.stdout = result.shader.reflectionText sourceName (!settings.noSource)
          ∧ outcome.ending = .exit 0
  failure
    : outcome.stdout = "" → outcome.ending = .exit (if result.isOk then 1 else result.code)

/-- The outcome for a build tells how it went, by cases on the three outcomes. -/
theorem Settings.Limited.outcomeOf_tells (h : settings.Limited limits)
    : (settings.outcomeOf sourceName result).Tells settings sourceName result := by
  rcases Option.eq_none_or_eq_some result.error with ok | ⟨e, failed⟩
  · have isOk : result.isOk = true := by simp [BuildResult.isOk, ok]
    by_cases rejected : settings.strict = true ∧ result.warnings ≠ #[]
    · rw [settings.outcomeOf_rejected ok rejected]
      refine ⟨?_, fun shown => absurd rfl shown, fun _ => ?_⟩
      · exact iff_of_false (fun shown => shown rfl) (fun accepted => accepted.2 rejected)
      · rw [isOk, if_pos rfl]
    · rw [settings.outcomeOf_accepted ok rejected]
      have shown := result.shader.reflectionText_ne_empty sourceName (!settings.noSource)
      refine ⟨?_, fun _ => ⟨rfl, rfl⟩, fun hidden => absurd hidden shown⟩
      exact iff_of_true shown ⟨isOk, rejected⟩
  · have isFailed : result.isOk = false := by simp [BuildResult.isOk, failed]
    rw [h.outcomeOf_failed failed]
    refine ⟨?_, fun shown => absurd rfl shown, fun _ => ?_⟩
    · exact iff_of_false (fun shown => shown rfl) (by simp [isFailed])
    · simp [isFailed, BuildResult.code, failed]

-----------------------------------------------------------------------------------------
-- What each flag does to an outcome
-----------------------------------------------------------------------------------------

/-- The second outcome is the first with success turned into failure: it shows no document, and one
line more.
-/
structure Outcome.TurnedDown (plain strict : Outcome) : Prop where
  success : plain.ending = .exit 0
  ending : strict.ending = .exit 1
  stdout : strict.stdout = ""
  stderr : ∃ line : String, '\n' ∉ line.toList ∧ strict.stderr = plain.stderr ++ line ++ "\n"

/-- The second outcome is the first with the source of each stage taken out of its document. -/
structure Outcome.Filtered (plain filtered : Outcome) : Prop where
  ending : filtered.ending = plain.ending
  stderr : filtered.stderr = plain.stderr
  hidden : plain.stdout = "" → filtered.stdout = ""
  document
    : plain.stdout ≠ ""
        → ∃ value, Json.decode? plain.stdout = some value
            ∧ Json.decode? filtered.stdout = some value.withoutStageSources

theorem lineBreak_not_mem_toString (n : Nat) : '\n' ∉ (toString n).toList := by
  intro member
  rcases Text.mem_toString (n := (n : Int)) member with sign | digit
  · cases sign
  · cases digit

/-- Strictness lets an outcome through as it is or turns it down, by cases on the outcome. -/
theorem Settings.Limited.outcomeOf_strict (h : settings.Limited limits)
    : { settings with strict := true }.outcomeOf sourceName result
        = settings.outcomeOf sourceName result
      ∨ result.isOk ∧ result.warnings ≠ #[]
        ∧ (settings.outcomeOf sourceName result).TurnedDown
            ({ settings with strict := true }.outcomeOf sourceName result) := by
  rcases Option.eq_none_or_eq_some result.error with ok | ⟨e, failed⟩
  · by_cases rejected : settings.strict = true ∧ result.warnings ≠ #[]
    · left
      rw [settings.outcomeOf_rejected ok rejected, outcomeOf_rejected _ ok ⟨rfl, rejected.2⟩]
    · by_cases warned : result.warnings = #[]
      · left
        rw [settings.outcomeOf_accepted ok rejected,
          outcomeOf_accepted _ ok (fun both => both.2 warned)]
      · right
        rw [settings.outcomeOf_accepted ok rejected, outcomeOf_rejected _ ok ⟨rfl, warned⟩]
        refine ⟨by simp [BuildResult.isOk, ok], warned, rfl, rfl, rfl, ?_⟩
        refine ⟨"Error: " ++ toString result.warnings.size ++ " warning(s) with --strict", ?_, ?_⟩
        · simpa [String.toList_append] using lineBreak_not_mem_toString result.warnings.size
        · simp only [String.append_assoc]
          rfl
  · left
    have limited : { settings with strict := true }.Limited limits := { h with }
    rw [h.outcomeOf_failed failed, limited.outcomeOf_failed failed]

/-- Leaving sources out filters the document that is shown, by cases on the outcome. -/
theorem Settings.Limited.outcomeOf_noSource (h : settings.Limited limits)
    : (settings.outcomeOf sourceName result).Filtered
        ({ settings with noSource := true }.outcomeOf sourceName result) := by
  rcases Option.eq_none_or_eq_some result.error with ok | ⟨e, failed⟩
  · by_cases rejected : settings.strict = true ∧ result.warnings ≠ #[]
    · rw [settings.outcomeOf_rejected ok rejected,
        Settings.outcomeOf_rejected { settings with noSource := true } ok rejected]
      exact ⟨rfl, rfl, fun _ => rfl, fun shown => absurd rfl shown⟩
    · rw [settings.outcomeOf_accepted ok rejected,
        Settings.outcomeOf_accepted { settings with noSource := true } ok rejected]
      have shown := result.shader.reflectionText_ne_empty sourceName (!settings.noSource)
      refine ⟨rfl, rfl, fun hidden => absurd hidden shown, fun _ => ?_⟩
      refine ⟨_, result.shader.decode?_reflectionText sourceName _, ?_⟩
      rw [Shader.decode?_reflectionText, Shader.withoutStageSources_reflect]
      rfl
  · have limited : { settings with noSource := true }.Limited limits := { h with }
    rw [h.outcomeOf_failed failed, limited.outcomeOf_failed failed]
    exact ⟨rfl, rfl, fun _ => rfl, fun shown => absurd rfl shown⟩

-----------------------------------------------------------------------------------------
-- Command lines
-----------------------------------------------------------------------------------------

variable {read : Path → Except ReadError String} {arguments : List String} {input text : String}

/-- A command line for a run on a file that can be read tells of the build of that file. -/
theorem run_of_readable (asked : Request.ofArguments arguments = .run settings)
    (named : settings.input = some input) (readable : read (.ofText input) = .ok text)
    (h : settings.Limited limits)
    : run arguments read = settings.outcomeOf (Path.ofText input).name (build limits text) := by
  simp only [run, asked, Request.outcome, named, readable, Settings.outcomeOfFile, h.limits_eq]

/-- The flags of a command line change only what they name. A run on a file that can be read tells
of the build of that file. However `--strict` is added, the outcome stays as it is, or warnings
turn it down. However `--no-source` is added, the document is filtered. Both can be put in front.
-/
theorem flags_change_only_their_part (asked : Request.ofArguments arguments = .run settings)
    (named : settings.input = some input) (readable : read (.ofText input) = .ok text)
    (limited : settings.Limited limits)
    : (run arguments read).Tells settings (Path.ofText input).name (build limits text)
      ∧ (∀ flagged, Request.ofArguments flagged = .run { settings with strict := true }
          → run flagged read = run arguments read
            ∨ (build limits text).isOk ∧ (build limits text).warnings ≠ #[]
              ∧ (run arguments read).TurnedDown (run flagged read))
      ∧ (∀ flagged, Request.ofArguments flagged = .run { settings with noSource := true }
          → (run arguments read).Filtered (run flagged read))
      ∧ Request.ofArguments ("--strict" :: arguments) = .run { settings with strict := true }
      ∧ Request.ofArguments ("--no-source" :: arguments)
        = .run { settings with noSource := true } := by
  rw [run_of_readable asked named readable limited]
  refine ⟨limited.outcomeOf_tells, ?_, ?_, ?_, ?_⟩
  · intro flagged strictly
    rw [run_of_readable strictly named readable { limited with }]
    exact limited.outcomeOf_strict
  · intro flagged barely
    rw [run_of_readable barely named readable { limited with }]
    exact limited.outcomeOf_noSource
  · rw [Request.ofArguments_strict, asked]
    simp [Request.withFlags, Settings.withFlags]
  · rw [Request.ofArguments_noSource, asked]
    simp [Request.withFlags, Settings.withFlags]

/-- Witness: a limit, a shader and a warning. The run succeeds, strictness turns it down, and
without sources its document is filtered.
-/
theorem flags_change_only_their_part_warned
    : let text := "vertex\x7bin vec2 p;\x7d\x7dfragment\x7bout vec4 c;\x7d"
      let tree := FileTree.ofList [("a.glsl", .file text.toUTF8.data.toList)]
      let arguments := ["--max-word-length", "8", "a.glsl"]
      (build { word := some 8 } text).warnings = #[.atLine 1 .unbalancedBrace]
      ∧ (run arguments tree.readText).TurnedDown (run ("--strict" :: arguments) tree.readText)
      ∧ (run arguments tree.readText).Filtered
          (run ("--no-source" :: arguments) tree.readText) := by
  intro text tree arguments
  have asked
      : Request.ofArguments arguments
        = .run { input := some "a.glsl", wordLimit := some (.number 8) } := by
    decide +kernel
  have readable : tree.readText (.ofText "a.glsl") = .ok text := by cbv
  obtain ⟨warnings, passes, fails⟩
      : (build { word := some 8 } text).warnings = #[.atLine 1 .unbalancedBrace]
        ∧ (run arguments tree.readText).ending = .exit 0
        ∧ (run ("--strict" :: arguments) tree.readText).ending = .exit 1 := by
    decide +kernel
  obtain ⟨_, gate, filter, strict, noSource⟩ :=
    @flags_change_only_their_part _ { word := some 8 } _ arguments _ text asked rfl readable
      ⟨rfl, rfl⟩
  rcases gate _ strict with same | ⟨_, _, turnedDown⟩
  · rw [same, passes] at fails
    cases fails
  · exact ⟨warnings, turnedDown, filter _ noSource⟩

end CommandLine

end ShaderReflection
