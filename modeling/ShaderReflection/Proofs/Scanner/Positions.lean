import ShaderReflection.Proofs.Scanner.Invariant
import ShaderReflection.Proofs.Scanner.TokenRefinement
import ShaderReflection.Proofs.Tokens.TextTokens

/-! A scan followed from one position of its text to the next, line breaks included. Without limits
every position is reached. A limit on captured sources stops a scan at the first character that it
does not admit, and changes nothing before.
-/

namespace ShaderReflection

/-- A block with a further character captured, unless it is one of those left out. -/
def Block.capture (block : Block) (c : Char) : Block :=
  if Buffer.isLeftOut c then block else { block with source := block.source.push c }

theorem Block.capture_source (block : Block) (c : Char)
    : (block.capture c).source.chars.toList
      = block.source.chars.toList ++ if Buffer.isLeftOut c then [] else [c] := by
  unfold capture
  split <;> simp

theorem Block.capture_place (block : Block) (c : Char)
    : (block.capture c).name = block.name ∧ (block.capture c).outerDepth = block.outerDepth := by
  unfold capture
  split <;> exact ⟨rfl, rfl⟩

namespace Scanner

variable {limits : Limits} {s : Scanner} {cs : List Char} {n : Nat} {c : Char}

-----------------------------------------------------------------------------------------
-- One character
-----------------------------------------------------------------------------------------

/-- The scan with a character captured by the block around it. -/
def captured (s : Scanner) (c : Char) : Scanner :=
  { s with block := s.block.map (Block.capture · c) }

/-- The block around a scan stays where it is when a character is captured. -/
theorem captured_block {block : Block} (place : (s.captured c).block = some block)
    : ∃ before,
        s.block = some before
        ∧ block.name = before.name
        ∧ block.outerDepth = before.outerDepth := by
  obtain ⟨before, found, rfl⟩ := Option.map_eq_some_iff.mp place
  exact ⟨before, found, before.capture_place c⟩

/-- The overflow that a limit on captured sources makes of a character. -/
def captureOverflow? (limit : Option Int) (s : Scanner) (c : Char) : Option Overflow :=
  match s.block with
  | none => none
  | some block => if Buffer.isLeftOut c then none else block.source.sourceOverflow? limit

theorem capture_eq (limits : Limits) (s : Scanner) (c : Char)
    : s.capture limits c
      = match s.captureOverflow? limits.source c with
        | some overflow => .error ⟨overflow, s⟩
        | none => .ok (s.captured c) := by
  have untouched {block : Option Block} (place : s.block = block) : { s with block } = s := by
    rw [← place]
  cases place : s.block with
  | none => simp only [capture_cases, captureOverflow?, captured, place, Option.map_none, untouched]
  | some block =>
      simp only [capture_cases, captureOverflow?, captured, place, Option.map_some, Block.capture]
      split
      · rw [untouched place]
      · rfl

/-- Takes in a character of a text. A line break ends its line. -/
def feed (limits : Limits) (s : Scanner) (c : Char) (next : Option Char)
    : Except Interruption Scanner :=
  if c = '\n' then .ok s.flushWord.startLine else s.step limits c next

/-- What a character outside comments does, by its class. -/
def react (s : Scanner) (c : Char) : CharClass → Scanner
  | .mark mark => s.flushWord.accept (.mark mark)
  | .commentStart => { s.flushWord with inComment := true }
  | .separator => s.flushWord
  | .wordChar => { s with word := s.word.push c }

/-- Where a character of a text leads if no limit stops the scan. -/
def advance (s : Scanner) (c : Char) (next : Option Char) : Scanner :=
  if c = '\n' then s.flushWord.startLine
  else if s.inComment then s.captured c
  else (s.captured c).react c (CharClass.of c next)

/-- A mark outside comments ends the pending word and is taken in, whatever follows it. -/
theorem advance_of_mark {mark : Mark} (isMark : Mark.ofChar? c = some mark)
    (code : s.inComment = false) (next : Option Char)
    : s.advance c next = (s.captured c).flushWord.accept (.mark mark) := by
  have lineBreak : c ≠ '\n' := by
    rintro rfl
    cases isMark
  rw [advance, if_neg lineBreak, code, CharClass.of_eq_mark_iff.mpr isMark]
  rfl

/-- Without a limit on words a character is refused by the captured source only. -/
theorem feed_eq_advance (free : limits.word = none) (s : Scanner) (c : Char) (next : Option Char)
    : s.feed limits c next
      = match s.captureOverflow? limits.source c with
        | some overflow => .error ⟨overflow, s⟩
        | none => .ok (s.advance c next) := by
  unfold feed advance
  by_cases lineBreak : c = '\n'
  · have admitted : s.captureOverflow? limits.source c = none := by
      unfold captureOverflow?
      rw [lineBreak]
      cases s.block <;> rfl
    rw [admitted, if_pos lineBreak, if_pos lineBreak]
  · rw [if_neg lineBreak, if_neg lineBreak, step, capture_eq]
    cases s.captureOverflow? limits.source c with
    | some overflow => rfl
    | none =>
        have sameComment : (s.captured c).inComment = s.inComment := rfl
        simp only [classify, extendWord_eq, Buffer.wordOverflow?, free, sameComment]
        split
        · rfl
        · cases CharClass.of c next <;> rfl

theorem captureOverflow?_unlimited (s : Scanner) (c : Char) : s.captureOverflow? none c = none := by
  unfold captureOverflow?
  split
  · rfl
  · split <;> rfl

theorem feed_unlimited (s : Scanner) (c : Char) (next : Option Char)
    : s.feed {} c next = .ok (s.advance c next) := by
  rw [feed_eq_advance rfl, captureOverflow?_unlimited]

-----------------------------------------------------------------------------------------
-- Lines are joined by line breaks
-----------------------------------------------------------------------------------------

/-- Takes in characters of a text one after another. -/
def feedAll (limits : Limits) (s : Scanner) : List Char → Except Interruption Scanner
  | [] => .ok s
  | c :: rest =>
      match s.feed limits c rest.head? with
      | .error stopped => .error stopped
      | .ok s => feedAll limits s rest

/-- Of the character behind it, a character only sees whether that is a slash. -/
theorem step_congr_next {next other : Option Char}
    (same : next = some '/' ↔ other = some '/')
    : s.step limits c next = s.step limits c other := by
  simp only [step, classify, CharClass.of_congr_next fun _ => same]

theorem scanLines_cons (limits : Limits) (s : Scanner) (first : List Char)
    (more : List (List Char))
    : s.scanLines limits (first :: more)
      = (s.startLine.steps limits first).bind fun t => t.flushWord.scanLines limits more := by
  rw [scanLines, scanLine]
  cases s.startLine.steps limits first <;> rfl

/-- From a place in a line on, the rest of that line and the lines behind it are scanned like the
characters that they are made of. By induction along the characters; the first line of what follows
is the rest of the current one.
-/
theorem steps_scanLines_eq_feedAll {first : List Char} {more : List (List Char)}
    (lines : Text.lines cs = first :: more)
    : ((s.steps limits first).bind fun t => t.flushWord.scanLines limits more)
      = (s.feedAll limits cs).map flushWord := by
  induction cs generalizing s first more with
  | nil =>
      cases lines
      rfl
  | cons c rest ih =>
      obtain ⟨later, others, restLines⟩ := List.exists_cons_of_ne_nil (Text.split_ne_nil '\n' rest)
      rw [Text.lines_cons c restLines] at lines
      rw [feedAll, feed]
      by_cases lineBreak : c = '\n'
      · rw [if_pos lineBreak] at lines ⊢
        cases lines
        rw [← ih restLines, ← scanLines_cons]
        rfl
      · rw [if_neg lineBreak] at lines ⊢
        cases lines
        rw [steps, step_congr_next (Text.head?_of_lines restLines)]
        cases s.step limits c rest.head? with
        | error stopped => rfl
        | ok t => exact ih restLines

theorem scanLines_lines (limits : Limits) (s : Scanner) (cs : List Char)
    : s.scanLines limits (Text.lines cs) = (s.startLine.feedAll limits cs).map flushWord := by
  obtain ⟨first, more, lines⟩ := List.exists_cons_of_ne_nil (Text.split_ne_nil '\n' cs)
  have lines : Text.lines cs = first :: more := lines
  rw [← steps_scanLines_eq_feedAll lines, lines, scanLines_cons]

-----------------------------------------------------------------------------------------
-- Positions
-----------------------------------------------------------------------------------------

/-- The state of a scan without limits in front of the character at a position. -/
def upTo (cs : List Char) : Nat → Scanner
  | 0 => startLine {}
  | n + 1 =>
      match cs[n]? with
      | some c => (upTo cs n).advance c cs[n + 1]?
      | none => upTo cs n

theorem upTo_succ (found : cs[n]? = some c)
    : upTo cs (n + 1) = (upTo cs n).advance c cs[n + 1]? := by
  simp only [upTo, found]

/-- The state in which a scan without limits leaves a text. -/
def ofText (text : String) : Scanner :=
  (upTo text.toList text.toList.length).finish

theorem drop_eq_cons {rest : List Char} (behind : cs.drop n = c :: rest)
    : cs[n]? = some c ∧ cs.drop (n + 1) = rest := by
  rw [← List.head?_drop, ← List.tail_drop, behind]
  exact ⟨rfl, rfl⟩

/-- Where no character is refused from a position on, the end is reached. -/
theorem feedAll_upTo (free : limits.word = none)
    (admitted
      : ∀ m d, n ≤ m → cs[m]? = some d → (upTo cs m).captureOverflow? limits.source d = none)
    : (upTo cs n).feedAll limits (cs.drop n) = .ok (upTo cs (max n cs.length)) := by
  induction behind : cs.drop n generalizing n with
  | nil =>
      have past : cs.length ≤ n := List.drop_eq_nil_iff.mp behind
      rw [feedAll, Nat.max_eq_left past]
  | cons c rest ih =>
      obtain ⟨found, later⟩ := drop_eq_cons behind
      have inside : n < cs.length := (List.getElem?_eq_some_iff.mp found).1
      rw [feedAll, feed_eq_advance free, admitted n c (Nat.le_refl n) found, ← later,
        List.head?_drop, ← upTo_succ found, later]
      have reached := ih (n := n + 1) (fun m d below => admitted m d (by omega)) later
      rw [Nat.max_eq_right (by omega)] at reached ⊢
      exact reached

/-- A character that is refused stops the scan there or before. -/
theorem feedAll_stopped (free : limits.word = none) {m : Nat} {d : Char} (behindStart : n ≤ m)
    (found : cs[m]? = some d)
    (refused : (upTo cs m).captureOverflow? limits.source d ≠ none)
    : ∃ stopped, (upTo cs n).feedAll limits (cs.drop n) = .error stopped := by
  induction behind : cs.drop n generalizing n with
  | nil =>
      have past : cs.length ≤ n := List.drop_eq_nil_iff.mp behind
      have inside : m < cs.length := (List.getElem?_eq_some_iff.mp found).1
      omega
  | cons c rest ih =>
      obtain ⟨here, later⟩ := drop_eq_cons behind
      rw [feedAll, feed_eq_advance free]
      cases full : (upTo cs n).captureOverflow? limits.source c with
      | some overflow => exact ⟨_, rfl⟩
      | none =>
          have different : n ≠ m := by
            rintro rfl
            rw [Option.some.inj (here.symm.trans found)] at full
            exact refused full
          rw [← later, List.head?_drop, ← upTo_succ here, later]
          exact ih (by omega) later

theorem finish_flushWord (s : Scanner) : s.flushWord.finish = s.finish := by
  have idle : s.flushWord.word.isEmpty := Buffer.isEmpty_iff.mpr s.flushWord_spot.word
  have twice : s.flushWord.flushWord = s.flushWord := flushWord_of_empty idle
  simp only [finish, twice]

theorem scan_eq_feedAll (limits : Limits) (text : String)
    : ({} : Scanner).scan limits text
      = ((upTo text.toList 0).feedAll limits text.toList).map finish := by
  rw [scan, scanLines_lines]
  change _ = ((startLine {}).feedAll limits text.toList).map finish
  cases (startLine {}).feedAll limits text.toList with
  | error stopped => rfl
  | ok s => exact congrArg Except.ok (finish_flushWord s)

/-- Without a limit on words a scan goes through a text as without any limit, or a captured source
refuses a character and stops it.
-/
theorem scan_cases (free : limits.word = none) (text : String)
    : (({} : Scanner).scan limits text = .ok (ofText text)
        ∧ ∀ n c, text.toList[n]? = some c
            → (upTo text.toList n).captureOverflow? limits.source c = none)
      ∨ (∃ stopped, ({} : Scanner).scan limits text = .error stopped)
        ∧ ∃ n c, text.toList[n]? = some c
            ∧ (upTo text.toList n).captureOverflow? limits.source c ≠ none := by
  rw [scan_eq_feedAll]
  by_cases admitted
      : ∀ n c, text.toList[n]? = some c
          → (upTo text.toList n).captureOverflow? limits.source c = none
  · have reached := feedAll_upTo (n := 0) free fun m d _ => admitted m d
    rw [List.drop_zero, Nat.zero_max] at reached
    exact Or.inl ⟨by rw [reached]; rfl, admitted⟩
  · obtain ⟨n, later⟩ := Classical.not_forall.mp admitted
    obtain ⟨c, later⟩ := Classical.not_forall.mp later
    obtain ⟨found, refused⟩ := Classical.not_imp.mp later
    obtain ⟨stopped, stops⟩ := feedAll_stopped free (Nat.zero_le n) found refused
    rw [List.drop_zero] at stops
    exact Or.inr ⟨⟨stopped, by rw [stops]; rfl⟩, n, c, found, refused⟩

theorem scan_unlimited (text : String) : ({} : Scanner).scan {} text = .ok (ofText text) := by
  rcases @scan_cases {} rfl text with ⟨scanned, _⟩ | ⟨_, n, c, _, refused⟩
  · exact scanned
  · exact absurd (captureOverflow?_unlimited _ c) refused

-----------------------------------------------------------------------------------------
-- What holds at every position
-----------------------------------------------------------------------------------------

theorem Steady.captured (h : s.Steady {}) (c : Char) : (s.captured c).Steady {} := by
  have outcome := h.capture c
  rw [capture_eq, captureOverflow?_unlimited] at outcome
  exact outcome.1

/-- A character keeps a scan steady and ready for the next one. -/
theorem Steady.advance (h : s.Steady {}) (ready : s.Ready {} (some c)) (next : Option Char)
    : (s.advance c next).Steady {} ∧ (s.advance c next).Ready {} next := by
  by_cases lineBreak : c = '\n'
  · have resting := h.flushWord.resting s.flushWord_spot.word
    rw [Scanner.advance, if_pos lineBreak]
    exact ⟨resting.startLine_steady, resting.startLine_ready _⟩
  · have outcome := h.step ready next
    have stepped := s.feed_unlimited c next
    rw [feed, if_neg lineBreak] at stepped
    rw [stepped] at outcome
    exact outcome

/-- Characters keep a scan steady, by induction along them. -/
theorem Steady.feedAll (h : s.Steady {}) (ready : s.Ready {} cs.head?) {t : Scanner}
    (fed : s.feedAll {} cs = .ok t)
    : t.Steady {} := by
  induction cs generalizing s with
  | nil =>
      cases fed
      exact h
  | cons c rest ih =>
      rw [Scanner.feedAll, feed_unlimited] at fed
      obtain ⟨steady, next⟩ := h.advance ready rest.head?
      exact ih steady next fed

/-- A scan is steady at every position, by induction over the positions. -/
theorem upTo_steady (cs : List Char) (n : Nat)
    : (upTo cs n).Steady {} ∧ (upTo cs n).Ready {} cs[n]? := by
  induction n with
  | zero =>
      have start := resting_start {}
      exact ⟨start.startLine_steady, start.startLine_ready _⟩
  | succ n ih =>
      obtain ⟨steady, ready⟩ := ih
      cases found : cs[n]? with
      | none =>
          have past : cs[n + 1]? = none := by
            rw [List.getElem?_eq_none_iff] at found ⊢
            omega
          simp only [upTo, found, past]
          exact ⟨steady, fun _ none => by cases none⟩
      | some c =>
          rw [upTo_succ found]
          exact steady.advance (found ▸ ready) cs[n + 1]?

end Scanner

end ShaderReflection
