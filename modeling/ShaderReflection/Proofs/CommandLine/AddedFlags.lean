import ShaderReflection.CommandLine.Settings

/-! Flags that are put in front of a command line. They set their own setting and change nothing
else in what the command line asks for.
-/

namespace ShaderReflection.CommandLine

namespace Settings

variable (settings : Settings) (noSource strict : Bool)

/-- The settings with the given flags set as well. -/
def withFlags : Settings :=
  { settings with noSource := settings.noSource || noSource, strict := settings.strict || strict }

@[simp]
theorem input_withFlags : (settings.withFlags noSource strict).input = settings.input :=
  rfl

theorem withFlags_setLimit (switch : Switch) (value : LimitValue)
    : (settings.setLimit switch value).withFlags noSource strict
      = (settings.withFlags noSource strict).setLimit switch value := by
  cases switch <;> rfl

theorem withFlags_noSource
    : { settings with noSource := true }.withFlags noSource strict
      = { settings.withFlags noSource strict with noSource := true } := by
  simp [withFlags]

theorem withFlags_strict
    : { settings with strict := true }.withFlags noSource strict
      = { settings.withFlags noSource strict with strict := true } := by
  simp [withFlags]

end Settings

/-- The full name of an option is read as that option. -/
theorem Argument.read_name (switch : Switch)
    : Argument.read switch.name = .ok (.switch switch none) := by
  have dashed : switch.name.toList.head? = some '-' ∧ switch.name.toList ≠ ['-'] := by
    cases switch <;> decide
  have found : named? switch.name.toList none = some (.switch switch none) := by
    cases switch <;> decide +kernel
  have option : ¬ (switch.name.toList.head? ≠ some '-' ∨ switch.name.toList = ['-']) := by
    rintro (other | dash)
    · exact other dashed.1
    · exact dashed.2 dash
  rw [Argument.read, if_neg option]
  simp only [found]
  rfl

namespace Request

/-- What is to be done with the given flags set as well. Only a run takes notice of them. -/
def withFlags (request : Request) (noSource strict : Bool) : Request :=
  match request with
  | .run settings => .run (settings.withFlags noSource strict)
  | other => other

/-- Flags that are set before any argument is followed are set at the end, and have no influence
on how the arguments are followed. By induction along the arguments.
-/
theorem follow_withFlags (settings : Settings) (surplus : List String)
    (arguments : List Argument) (noSource strict : Bool)
    : follow (settings.withFlags noSource strict) surplus arguments
      = (follow settings surplus arguments).withFlags noSource strict := by
  fun_induction follow settings surplus arguments with
  | case1 settings surplus =>
      rw [follow, conclude, conclude]
      split <;> rfl
  -- limits are set beside the flags
  | case7 settings surplus switch value rest takes limit read ih =>
      rw [← ih, Settings.withFlags_setLimit, follow, if_pos takes]
      simp only [read]
  | case13 | case14 | case15 =>
      rw [follow.eq_def]
      simp_all [Settings.withFlags_setLimit, withFlags]
  -- a flag that is set again stays set
  | case11 settings surplus rest ih => rw [← ih, Settings.withFlags_noSource, follow]
  | case12 settings surplus rest ih => rw [← ih, Settings.withFlags_strict, follow]
  -- the input does not depend on flags
  | case17 settings surplus text rest first ih | case19 settings surplus text rest _ first ih =>
      rw [← ih, follow.eq_def]
      simp_all [Settings.withFlags]
  | case18 | case20 | case21 | case22 =>
      rw [follow.eq_def]
      simp_all
  -- the short help option does not look at the settings
  | case2 | case3 => rfl
  | case4 settings surplus attached tail spent given | case5 settings surplus attached tail spent =>
      rw [follow]
      simp only [*, if_false]
      rfl
  -- all that remains ends the reading, or leaves the settings alone
  | _ =>
      rw [follow.eq_def]
      simp_all [withFlags]

/-- An option in front of a command line that sets flags sets them in whatever is asked for. -/
theorem ofArguments_cons {switch : Switch} {noSource strict : Bool}
    (sets
      : ∀ others, follow {} [] (.switch switch none :: others)
        = follow (Settings.withFlags {} noSource strict) [] others)
    (arguments : List String)
    : ofArguments (switch.name :: arguments)
      = (ofArguments arguments).withFlags noSource strict := by
  have option : switch.name ≠ "--" := by cases switch <;> decide
  rw [ofArguments, Argument.readAll, if_neg option, Argument.read_name, ofArguments]
  cases Argument.readAll arguments with
  | error e => rfl
  | ok others => exact (sets others).trans (follow_withFlags {} [] others noSource strict)

theorem ofArguments_strict (arguments : List String)
    : ofArguments ("--strict" :: arguments) = (ofArguments arguments).withFlags false true :=
  @ofArguments_cons .strict false true (fun _ => rfl) arguments

theorem ofArguments_noSource (arguments : List String)
    : ofArguments ("--no-source" :: arguments) = (ofArguments arguments).withFlags true false :=
  @ofArguments_cons .noSource true false (fun _ => rfl) arguments

end Request

end ShaderReflection.CommandLine
