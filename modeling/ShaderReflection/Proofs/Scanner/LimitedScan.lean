import ShaderReflection.Proofs.Scanner.CollectedWarnings

/-! Scans under limits against the scan without limits. A limit either admits a character, which
then does what it does without limits, or stops the scan there. Higher limits admit what lower ones
do.
-/

namespace ShaderReflection

namespace Limits

/-- A limit that is no lower than another one, or that is removed. -/
def RaisedLimit : Option Int → Option Int → Prop
  | _, none => True
  | none, some _ => False
  | some limit, some higher => limit ≤ higher

/-- Limits of which each is no lower than the other one for the same buffer, or is removed. -/
structure RaisedTo (limits higher : Limits) : Prop where
  word : RaisedLimit limits.word higher.word
  source : RaisedLimit limits.source higher.source

/-- Whether a limit admits a further character behind as many as given. -/
def Admits (limit : Option Int) (size : Nat) : Prop :=
  ∀ n, limit = some n → size < n

theorem Admits.raised {limit higher : Option Int} {size : Nat} (admitted : Admits limit size)
    (raised : RaisedLimit limit higher)
    : Admits higher size := by
  rintro m rfl
  cases limit with
  | none => exact raised.elim
  | some n =>
      have above : n ≤ m := raised
      have room : size < n := admitted n rfl
      omega

end Limits

theorem Buffer.wordOverflow?_eq_none_iff {limit : Option Int} {b : Buffer}
    : b.wordOverflow? limit = none ↔ Limits.Admits limit b.size := by
  cases limit <;> simp [wordOverflow?, Limits.Admits]

theorem Buffer.sourceOverflow?_eq_none_iff {limit : Option Int} {b : Buffer}
    : b.sourceOverflow? limit = none ↔ Limits.Admits limit b.size := by
  cases limit <;> simp [sourceOverflow?, Limits.Admits]

namespace Scanner

variable {limits higher : Limits} {s t : Scanner}

-----------------------------------------------------------------------------------------
-- One character
-----------------------------------------------------------------------------------------

/-- The overflow that a limit on words makes of a character. -/
def extendOverflow? (limit : Option Int) (s : Scanner) (c : Char) (next : Option Char)
    : Option Overflow :=
  if s.inComment then none
  else match CharClass.of c next with
    | .wordChar => s.word.wordOverflow? limit
    | _ => none

/-- Outside line breaks a character is refused by the captured source, or else by the pending word,
or it does what it does without limits.
-/
theorem step_eq_advance {c : Char} (lineBreak : c ≠ '\n') (next : Option Char)
    : s.step limits c next
      = match s.captureOverflow? limits.source c with
        | some overflow => .error ⟨overflow, s⟩
        | none =>
            match s.extendOverflow? limits.word c next with
            | some overflow => .error ⟨overflow, s.captured c⟩
            | none => .ok (s.advance c next) := by
  rw [step, capture_eq, advance, if_neg lineBreak]
  cases s.captureOverflow? limits.source c with
  | some overflow => rfl
  | none =>
      have sameComment : (s.captured c).inComment = s.inComment := rfl
      have sameWord : (s.captured c).word = s.word := rfl
      simp only [extendOverflow?, classify, extendWord_eq, sameComment, sameWord]
      split
      · rfl
      · cases CharClass.of c next with
        | wordChar =>
            cases s.word.wordOverflow? limits.word with
            | some overflow => rfl
            | none => rfl
        | _ => rfl

/-- A character does what it does without limits, or a limit stops the scan with the warnings that
it has there.
-/
theorem feed_cases (limits : Limits) (s : Scanner) (c : Char) (next : Option Char)
    : s.feed limits c next = .ok (s.advance c next)
      ∨ ∃ stopped, s.feed limits c next = .error stopped
          ∧ stopped.scanner.warnings = s.warnings := by
  by_cases lineBreak : c = '\n'
  · exact Or.inl (by rw [feed, advance, if_pos lineBreak, if_pos lineBreak])
  · rw [feed, if_neg lineBreak, step_eq_advance lineBreak]
    cases s.captureOverflow? limits.source c with
    | some overflow => exact Or.inr ⟨_, rfl, rfl⟩
    | none =>
        cases s.extendOverflow? limits.word c next with
        | some overflow => exact Or.inr ⟨_, rfl, rfl⟩
        | none => exact Or.inl rfl

theorem captureOverflow?_raised {c : Char}
    (raised : Limits.RaisedLimit limits.source higher.source)
    (admitted : s.captureOverflow? limits.source c = none)
    : s.captureOverflow? higher.source c = none := by
  unfold captureOverflow? at admitted ⊢
  split
  · rfl
  · next block inside =>
      simp only [inside] at admitted
      split at admitted
      · next leftOut => rw [if_pos leftOut]
      · next keeps =>
          rw [if_neg keeps]
          rw [Buffer.sourceOverflow?_eq_none_iff] at admitted ⊢
          exact admitted.raised raised

theorem extendOverflow?_raised {c : Char} {next : Option Char}
    (raised : Limits.RaisedLimit limits.word higher.word)
    (admitted : s.extendOverflow? limits.word c next = none)
    : s.extendOverflow? higher.word c next = none := by
  unfold extendOverflow? at admitted ⊢
  split
  · rfl
  · next outside =>
      rw [if_neg outside] at admitted
      cases kind : CharClass.of c next with
      | wordChar =>
          simp only [kind, Buffer.wordOverflow?_eq_none_iff] at admitted ⊢
          exact admitted.raised raised
      | _ => rfl

/-- Higher limits admit a character that lower ones admit. -/
theorem feed_raised (raised : limits.RaisedTo higher) {c : Char} {next : Option Char}
    (fed : s.feed limits c next = .ok t)
    : s.feed higher c next = .ok t := by
  by_cases lineBreak : c = '\n'
  · rw [feed, if_pos lineBreak] at fed ⊢
    exact fed
  · rw [feed, if_neg lineBreak, step_eq_advance lineBreak] at fed ⊢
    cases captures : s.captureOverflow? limits.source c with
    | some overflow => simp [captures] at fed
    | none =>
        cases grows : s.extendOverflow? limits.word c next with
        | some overflow => simp [captures, grows] at fed
        | none =>
            simp only [captures, grows] at fed
            simp only [captureOverflow?_raised raised.source captures,
              extendOverflow?_raised raised.word grows]
            exact fed

-----------------------------------------------------------------------------------------
-- Characters one after another
-----------------------------------------------------------------------------------------

/-- A run under limits is the run without limits, or it is stopped on the way, with warnings that
the run without limits has first. By induction along the characters.
-/
theorem feedAll_cases (limits : Limits) (s : Scanner) (cs : List Char)
    : ∃ t, s.feedAll {} cs = .ok t
        ∧ s.warnings.toList <+: t.warnings.toList
        ∧ (s.feedAll limits cs = .ok t
          ∨ ∃ stopped, s.feedAll limits cs = .error stopped
              ∧ stopped.scanner.warnings.toList <+: t.warnings.toList) := by
  induction cs generalizing s with
  | nil => exact ⟨s, rfl, List.prefix_rfl, Or.inl rfl⟩
  | cons c rest ih =>
      obtain ⟨t, free, later, outcome⟩ := ih (s.advance c rest.head?)
      have grown := (s.advance_warnings c rest.head?).trans later
      refine ⟨t, by rw [feedAll, feed_unlimited]; exact free, grown, ?_⟩
      rcases s.feed_cases limits c rest.head? with admitted | ⟨stopped, refused, warnings⟩
      · rw [feedAll, admitted]
        exact outcome
      · rw [feedAll, refused]
        exact Or.inr ⟨stopped, rfl, warnings ▸ grown⟩

theorem feedAll_raised (raised : limits.RaisedTo higher) {cs : List Char}
    (fed : s.feedAll limits cs = .ok t)
    : s.feedAll higher cs = .ok t := by
  induction cs generalizing s with
  | nil => exact fed
  | cons c rest ih =>
      rw [feedAll] at fed ⊢
      cases first : s.feed limits c rest.head? with
      | error stopped => simp [first] at fed
      | ok next =>
          simp only [first] at fed
          rw [feed_raised raised first]
          exact ih fed

/-- Limits let the scan of a text through as it is without limits, or they stop it with warnings
that come first without limits.
-/
theorem scan_limited (limits : Limits) (text : String)
    : ({} : Scanner).scan limits text = .ok (ofText text)
      ∨ ∃ stopped, ({} : Scanner).scan limits text = .error stopped
          ∧ stopped.scanner.warnings.toList <+: (ofText text).warnings.toList := by
  obtain ⟨t, free, _, outcome⟩ := feedAll_cases limits (upTo text.toList 0) text.toList
  have whole := scan_unlimited text
  rw [scan_eq_feedAll, free] at whole
  have ended : t.finish = ofText text := Except.ok.inj whole
  rw [scan_eq_feedAll]
  rcases outcome with through | ⟨stopped, stops, warnings⟩
  · rw [through]
    exact Or.inl (congrArg Except.ok ended)
  · rw [stops]
    refine Or.inr ⟨stopped, rfl, ?_⟩
    rw [← ended]
    exact warnings.trans t.finish_warnings

theorem scan_raised (raised : limits.RaisedTo higher) {text : String}
    (scanned : ({} : Scanner).scan limits text = .ok s)
    : ({} : Scanner).scan higher text = .ok s := by
  rw [scan_eq_feedAll] at scanned ⊢
  cases fed : (upTo text.toList 0).feedAll limits text.toList with
  | error stopped =>
      rw [fed] at scanned
      cases scanned
  | ok t =>
      rw [fed] at scanned
      rw [feedAll_raised raised fed]
      exact scanned

end Scanner

end ShaderReflection
