import ShaderReflection.Build
import ShaderReflection.Proofs.Scanner.LimitedScan

/-! Builds whose failures are written as they occur. Only a limit with too many digits cannot be
written, so limits without too many digits never keep a build from its outcome.
-/

namespace ShaderReflection

/-- Each limit that is given has no more digits than can be written. -/
structure Limits.Writable (limits : Limits) : Prop where
  word : ∀ n, limits.word = some n → Text.isWritable n
  source : ∀ n, limits.source = some n → Text.isWritable n

theorem Limits.writable_none : ({} : Limits).Writable where
  word := by rintro _ ⟨⟩
  source := by rintro _ ⟨⟩

/-- An integer is one of the limits that are given. -/
def Limits.Has (limits : Limits) (n : Int) : Prop :=
  limits.word = some n ∨ limits.source = some n

theorem Limits.Writable.of_has {limits : Limits} (h : limits.Writable) {n : Int}
    (given : limits.Has n)
    : Text.isWritable n := by
  rcases given with word | source
  · exact h.word n word
  · exact h.source n source

namespace Buffer

variable {limit : Option Int} {b : Buffer} {overflow : Overflow}

theorem limit_of_wordOverflow? (refused : b.wordOverflow? limit = some overflow)
    : limit = some overflow.limit := by
  unfold wordOverflow? at refused
  split at refused
  · split at refused
    · cases refused
      rfl
    · cases refused
  · cases refused

theorem limit_of_sourceOverflow? (refused : b.sourceOverflow? limit = some overflow)
    : limit = some overflow.limit := by
  unfold sourceOverflow? at refused
  split at refused
  · split at refused
    · cases refused
      rfl
    · cases refused
  · cases refused

end Buffer

namespace Scanner

variable {limits : Limits} {s : Scanner} {stopped : Interruption}

/-- A character that is refused is refused by one of the limits, that on the captured source or that
on words.
-/
theorem has_of_feed {c : Char} {next : Option Char}
    (refused : s.feed limits c next = .error stopped)
    : limits.Has stopped.overflow.limit := by
  by_cases lineBreak : c = '\n'
  · rw [feed, if_pos lineBreak] at refused
    cases refused
  · rw [feed, if_neg lineBreak, step_eq_advance lineBreak] at refused
    cases captures : s.captureOverflow? limits.source c with
    | some overflow =>
        simp only [captures] at refused
        cases refused
        unfold captureOverflow? at captures
        split at captures
        · cases captures
        · split at captures
          · cases captures
          · exact Or.inr (Buffer.limit_of_sourceOverflow? captures)
    | none =>
        cases grows : s.extendOverflow? limits.word c next with
        | none => simp [captures, grows] at refused
        | some overflow =>
            simp only [captures, grows] at refused
            cases refused
            unfold extendOverflow? at grows
            split at grows
            · cases grows
            · split at grows
              · exact Or.inl (Buffer.limit_of_wordOverflow? grows)
              · cases grows

theorem has_of_feedAll {cs : List Char} (refused : s.feedAll limits cs = .error stopped)
    : limits.Has stopped.overflow.limit := by
  induction cs generalizing s with
  | nil => cases refused
  | cons c rest ih =>
      rw [feedAll] at refused
      cases first : s.feed limits c rest.head? with
      | error early =>
          simp only [first] at refused
          cases refused
          exact has_of_feed first
      | ok next =>
          simp only [first] at refused
          exact ih refused

/-- A scan is stopped by one of the limits that are given. -/
theorem has_of_scan {text : String} (stops : ({} : Scanner).scan limits text = .error stopped)
    : limits.Has stopped.overflow.limit := by
  rw [scan_eq_feedAll] at stops
  cases fed : (upTo text.toList 0).feedAll limits text.toList with
  | ok s =>
      rw [fed] at stops
      cases stops
  | error early =>
      rw [fed] at stops
      cases stops
      exact has_of_feedAll fed

end Scanner

variable {limits : Limits} {text : String}

theorem writtenBuild_of_unstopped (unstopped : (build limits text).code ≠ 5)
    : writtenBuild limits text = .ok (build limits text) := by
  unfold writtenBuild
  cases scanned : ({} : Scanner).scan limits text with
  | ok s => rfl
  | error stopped =>
      rw [build, scanned] at unstopped
      exact absurd rfl unstopped

/-- Limits without too many digits never keep a build from its outcome. -/
theorem Limits.Writable.writtenBuild_eq (h : limits.Writable) (text : String)
    : writtenBuild limits text = .ok (build limits text) := by
  unfold writtenBuild
  cases scanned : ({} : Scanner).scan limits text with
  | ok s => rfl
  | error stopped =>
      have written : stopped.overflow.written = .ok stopped.overflow.message :=
        if_pos (h.of_has (Scanner.has_of_scan scanned))
      simp only [written]
      rfl

/-- Whether a scan is stopped by a limit with too many digits. -/
def Scanner.isBrokenOff : Except Interruption Scanner → Bool
  | .error stopped => !Text.isWritable stopped.overflow.limit
  | .ok _ => false

/-- A limit with too many digits keeps the build that it stops from any outcome. -/
theorem writtenBuild_of_isBrokenOff
    (brokenOff : Scanner.isBrokenOff (({} : Scanner).scan limits text) = true)
    : writtenBuild limits text = .error Text.tooLongMessage := by
  unfold writtenBuild
  cases scanned : ({} : Scanner).scan limits text with
  | ok s =>
      rw [scanned] at brokenOff
      cases brokenOff
  | error stopped =>
      rw [scanned, Scanner.isBrokenOff, Bool.not_eq_true'] at brokenOff
      have unwritten : stopped.overflow.written = .error Text.tooLongMessage :=
        if_neg (by simp [brokenOff])
      simp only [unwritten]
      rfl

end ShaderReflection
