import ShaderReflection.Proofs.Build.SectionLimit
import ShaderReflection.Proofs.Scanner.LimitedScan
import ShaderReflection.Proofs.Tokens.LongRuns

/-! Which limits on words a text exceeds. A limit sees each run of word characters whole, and the
first run that is longer stops the scan.
-/

namespace ShaderReflection

open Text Token

namespace Scanner

variable {limit : Int} {s : Scanner} {c : Char} {cs : List Char}

/-- What an overflow shows of a run: as many characters as the limit admits, of which it shows some.
-/
def shownStart (limit : Int) (run : List Char) : String :=
  String.ofList (run.take (min Buffer.shownLength (max limit 0).toNat))

/-- A scan under a limit on words goes through, or is stopped at a long run with the start of it. -/
def StopsAt (limit : Int) : Option (List Char) → Except Interruption Scanner → Prop
  | none, .ok _ => True
  | some run, .error stopped => stopped.overflow = .word limit (shownStart limit run)
  | _, _ => False

theorem feed_of_word_limit (s : Scanner) (c : Char) (next : Option Char)
    : s.feed { word := some limit } c next
      = match s.extendOverflow? (some limit) c next with
        | some overflow => .error ⟨overflow, s.captured c⟩
        | none => .ok (s.advance c next) := by
  by_cases lineBreak : c = '\n'
  · subst lineBreak
    have admitted : s.extendOverflow? (some limit) '\n' next = none := by
      unfold extendOverflow?
      split <;> rfl
    rw [feed, advance, admitted, if_pos rfl, if_pos rfl]
  · rw [feed, if_neg lineBreak, step_eq_advance lineBreak]
    cases s.extendOverflow? (some limit) c next <;>
      simp only [captureOverflow?_unlimited]

/-- An overflow stops a scan at a word that is as long as the limit admits. -/
theorem extendOverflow?_eq_some {next : Option Char} {overflow : Overflow}
    (refused : s.extendOverflow? (some limit) c next = some overflow)
    : s.inComment = false
      ∧ CharClass.of c next = .wordChar
      ∧ limit ≤ s.word.chars.toList.length
      ∧ overflow = .word limit (String.ofList (s.word.chars.toList.take Buffer.shownLength)) := by
  unfold extendOverflow? at refused
  split at refused
  · cases refused
  · next code =>
      split at refused
      · next kind =>
          rw [Buffer.wordOverflow?] at refused
          split at refused
          · next full =>
              cases refused
              exact ⟨by simpa using code, kind, full, rfl⟩
          · cases refused
      · cases refused

theorem advance_inComment_of_code (code : s.inComment = false) (lineBreak : c ≠ '\n')
    (next : Option Char)
    : (s.advance c next).inComment = decide (CharClass.of c next = .commentStart) := by
  rw [advance_inComment, code, bne_iff_ne.mpr lineBreak]
  simp [CharClass.of_eq_commentStart_iff, Bool.decide_and, Bool.beq_eq_decide_eq]

theorem isLong_nil (limit : Int) : isLong limit [] = false := by
  simp only [isLong, List.length_nil, decide_eq_false_iff_not]
  omega

/-- A character that is admitted leaves a word that is not long, and the same first long word to
come. By cases on the class of the character.
-/
theorem advance_of_admitted (short : isLong limit s.word.chars.toList = false)
    (admitted : s.extendOverflow? (some limit) c cs.head? = none)
    : isLong limit (s.advance c cs.head?).word.chars.toList = false
      ∧ (words (scanning s.inComment s.word.chars.toList (c :: cs))).find? (isLong limit)
        = (words (scanning (s.advance c cs.head?).inComment
            (s.advance c cs.head?).word.chars.toList cs)).find? (isLong limit) := by
  have nothing := isLong_nil limit
  rw [scanning, advance_word]
  by_cases lineBreak : c = '\n'
  · simp [advance_inComment, lineBreak, nothing, find?_words_ofPending short]
  · cases comment : s.inComment with
    | true => simp [advance_inComment, bne_iff_ne.mpr lineBreak, lineBreak, short, comment]
    | false =>
        rw [advance_inComment_of_code comment lineBreak]
        simp only [lineBreak, if_false, Bool.false_eq_true]
        cases kind : CharClass.of c cs.head? with
        | mark mark => exact ⟨nothing, find?_words_ofPending short _⟩
        | commentStart => exact ⟨nothing, find?_words_ofPending short _⟩
        | separator => exact ⟨nothing, find?_words_ofPending short _⟩
        | wordChar =>
            simp only [extendOverflow?, comment, kind, Bool.false_eq_true, if_false,
              Buffer.wordOverflow?_eq_none_iff] at admitted
            have room := admitted limit rfl
            refine ⟨?_, by simp⟩
            simp only [Buffer.size, Buffer.toList_push, isLong, List.length_append,
              List.length_singleton, Array.length_toList, decide_eq_false_iff_not] at room ⊢
            omega

/-- A character that is refused belongs to a long word, which the pending one begins. -/
theorem find?_of_refused (short : isLong limit s.word.chars.toList = false) {overflow : Overflow}
    (refused : s.extendOverflow? (some limit) c cs.head? = some overflow)
    : ∃ run,
        (words (scanning s.inComment s.word.chars.toList (c :: cs))).find? (isLong limit) = some run
        ∧ overflow = .word limit (shownStart limit run) := by
  obtain ⟨code, kind, full, rfl⟩ := extendOverflow?_eq_some refused
  have lineBreak : c ≠ '\n' := by
    rintro rfl
    cases kind
  have nonempty : s.word.chars.toList ++ [c] ≠ [] := by simp
  obtain ⟨more, tokens, read⟩ := scanning_of_pending nonempty false cs
  have size : s.word.chars.toList.length = (max limit 0).toNat := by
    simp only [isLong, decide_eq_false_iff_not] at short
    omega
  refine ⟨s.word.chars.toList ++ [c] ++ more, ?_, ?_⟩
  · have long : isLong limit (s.word.chars.toList ++ [c] ++ more) = true := by
      simp only [isLong, List.length_append, List.length_singleton, decide_eq_true_eq]
      omega
    rw [scanning, if_neg lineBreak, code, if_neg Bool.false_ne_true, kind]
    simp only [read, words, List.filterMap_cons, word?, String.toList_ofList]
    rw [List.find?_cons_of_pos long]
  · rw [shownStart, ← size, List.append_assoc, List.take_append_of_le_length (by omega),
      ← List.take_eq_take_min]

/-- A limit on words stops a scan at the first long word to come, or not at all. By induction along
the characters; the pending word is not long.
-/
theorem feedAll_stopsAt (short : isLong limit s.word.chars.toList = false)
    : StopsAt limit
        ((words (scanning s.inComment s.word.chars.toList cs)).find? (isLong limit))
        (s.feedAll { word := some limit } cs) := by
  induction cs generalizing s with
  | nil =>
      have nothing := find?_words_ofPending short []
      rw [List.append_nil] at nothing
      rw [scanning, nothing]
      trivial
  | cons c rest ih =>
      rw [feedAll, feed_of_word_limit]
      cases admits : s.extendOverflow? (some limit) c rest.head? with
      | some overflow =>
          obtain ⟨run, first, cause⟩ := find?_of_refused short admits
          rw [first]
          exact cause
      | none =>
          obtain ⟨still, same⟩ := advance_of_admitted short admits
          rw [same]
          exact ih still

theorem StopsAt.map {first : Option (List Char)} {scanned : Except Interruption Scanner}
    (h : StopsAt limit first scanned) (ending : Scanner → Scanner)
    : StopsAt limit first (scanned.map ending) := by
  cases first <;> cases scanned <;> exact h

/-- A limit on words stops the scan of a text at its first long run, or not at all. -/
theorem scan_stopsAt (limit : Int) (text : String)
    : StopsAt limit ((wordRuns text.toList).find? (isLong limit))
        (({} : Scanner).scan { word := some limit } text) := by
  rw [find?_wordRuns, ofText_eq_scanning, scan_eq_feedAll]
  exact (feedAll_stopsAt (s := upTo text.toList 0) (isLong_nil limit)).map finish

end Scanner

open Scanner

/-- A text has a long run exactly if some line has one, as a part of any kind. -/
theorem exists_long_run_iff (limit : Int) (cs : List Char)
    : (∃ line ∈ Text.lines cs,
        ∃ run, run <:+: beforeComment line ∧ (∀ c ∈ run, CharClass.isWordChar c) ∧ isLong limit run)
      ↔ ∃ run, (wordRuns cs).find? (isLong limit) = some run := by
  simp only [exists_long_infix_iff, ← Option.isSome_iff_exists, List.find?_isSome, wordRuns,
    List.mem_flatMap, wordRunsOfLine]
  constructor
  · rintro ⟨line, listed, run, member, long⟩
    exact ⟨run, ⟨line, listed, member⟩, long⟩
  · rintro ⟨run, ⟨line, listed, member⟩, long⟩
    exact ⟨line, listed, run, member, long⟩

/-- The report of a word that is too long. -/
theorem report_word (limit : Int) (start : String)
    : (BuildError.overflow (.word limit start)).report
      = "Error with code '5' occurred while scanning the source: Word longer than " ++ toString limit
        ++ " characters: '" ++ start ++ "...'" := by
  have opening
      : "Error with code '" ++ toString 5 ++ "' occurred while " ++ "scanning the source" ++ ": "
          ++ "Word longer than "
        = "Error with code '5' occurred while scanning the source: Word longer than " := by
    decide +kernel
  calc (BuildError.overflow (.word limit start)).report
    _ = "Error with code '" ++ toString 5 ++ "' occurred while " ++ "scanning the source" ++ ": "
          ++ ("Word longer than " ++ toString limit ++ " characters: '" ++ start ++ "...'") := rfl
    _ = "Error with code '" ++ toString 5 ++ "' occurred while " ++ "scanning the source" ++ ": "
          ++ "Word longer than " ++ toString limit ++ " characters: '" ++ start ++ "...'" := by
        simp only [String.append_assoc]
    _ = _ :=
        congrArg (fun words => words ++ toString limit ++ " characters: '" ++ start ++ "...'") opening

/-- The limit on words is exact if it can be written. A build fails with an overflow exactly if some
line has, before its comment, a run of word characters that is longer than the limit, wherever it
stands; and the report then shows how the first such run begins.
-/
theorem word_limit_exact (text : String) (limit : Int) (writable : Text.isWritable limit)
    : let result := build { word := some limit } text
      writtenBuild { word := some limit } text = .ok result
      ∧ (result.code = 5
        ↔ ∃ line ∈ Text.lines text.toList,
            ∃ run, run <:+: beforeComment line
              ∧ (∀ c ∈ run, CharClass.isWordChar c)
              ∧ max limit 0 < run.length)
      ∧ (result.code = 5
          → ∃ run,
              (wordRuns text.toList).find? (fun run => max limit 0 < run.length) = some run
              ∧ result.reports
                = ["Error with code '5' occurred while scanning the source: Word longer than "
                    ++ toString limit ++ " characters: '"
                    ++ String.ofList (run.take (min 32 (max limit 0).toNat)) ++ "...'"]) := by
  intro result
  have limitWritable : ({ word := some limit } : Limits).Writable := by
    constructor <;> rintro _ ⟨⟩
    exact writable
  refine ⟨limitWritable.writtenBuild_eq text, ?_⟩
  have stops := scan_stopsAt limit text
  have long := exists_long_run_iff limit text.toList
  simp only [isLong, decide_eq_true_eq] at long
  cases first : (wordRuns text.toList).find? (isLong limit) with
  | none =>
      rw [first] at stops
      have through : result.code ≠ 5 := by
        rw [Ne, code_build_eq_five_iff]
        rintro ⟨stopped, scanned⟩
        rw [scanned] at stops
        exact stops
      refine ⟨iff_of_false through ?_, fun stopped => absurd stopped through⟩
      rw [long]
      rintro ⟨run, found⟩
      cases first.symm.trans found
  | some run =>
      rw [first] at stops
      cases scanned : ({} : Scanner).scan { word := some limit } text with
      | ok s =>
          rw [scanned] at stops
          exact stops.elim
      | error stopped =>
          rw [scanned] at stops
          have failed : result.error = some (.overflow (.word limit (shownStart limit run))) := by
            have cause : stopped.overflow = .word limit (shownStart limit run) := stops
            simp only [result, build, scanned, cause]
          refine ⟨iff_of_true ?_ (long.mpr ⟨run, first⟩), fun _ => ⟨run, first, ?_⟩⟩
          · rw [BuildResult.code, failed]
            rfl
          · simp only [BuildResult.reports, failed, Option.toList_some, List.map_cons, List.map_nil,
              report_word]
            rfl

/-- Witness: of three words that are longer than six characters the first stands in a comment and
does not count, the second in a parameter list outside all sections, and the third in a section.
Below zero every word is too long, and nothing of it is shown.
-/
theorem word_limit_exact_outside
    : let text := "f //12345678\n(abcdefg) vertex\x7bin vec3 position;\x7d"
      Text.isWritable 6
      ∧ Text.isWritable (-1)
      ∧ (build { word := some 6 } text).code = 5
      ∧ (build { word := some 6 } text).reports
        = ["Error with code '5' occurred while scanning the source: "
            ++ "Word longer than 6 characters: 'abcdef...'"]
      ∧ (build { word := some 8 } text).code ≠ 5
      ∧ (build { word := some (-1) } text).reports
        = ["Error with code '5' occurred while scanning the source: "
            ++ "Word longer than -1 characters: '...'"] := by
  intro text
  have six : Text.isWritable 6 := by decide +kernel
  have negative : Text.isWritable (-1) := by decide +kernel
  have stopped : (build { word := some 6 } text).code = 5 := by decide +kernel
  have below : (build { word := some (-1) } text).code = 5 := by decide +kernel
  obtain ⟨run, first, reports⟩ := (word_limit_exact text 6 six).2.2 stopped
  obtain ⟨word, found, reportsBelow⟩ := (word_limit_exact text (-1) negative).2.2 below
  have second
      : (wordRuns text.toList).find? (fun run => max (6 : Int) 0 < run.length)
        = some "abcdefg".toList := by
    decide +kernel
  refine ⟨six, negative, stopped, ?_, by decide +kernel, ?_⟩
  · rw [reports, Option.some.inj (first.symm.trans second)]
    decide +kernel
  · have nothing : word.take (min 32 (max (-1 : Int) 0).toNat) = [] := List.take_zero
    rw [reportsBelow, nothing]
    decide +kernel

/-- A limit with too many digits is not exact: ten to the power of 4300, below zero, leaves a text
with a long run without an overflow and without a report.
-/
theorem unwritable_word_limit_inexact
    : let limit : Int := -(Nat.pow 10 4300 : Nat)
      writtenBuild { word := some limit } "a" = .error Text.tooLongMessage
      ∧ ¬((∃ result, writtenBuild { word := some limit } "a" = .ok result ∧ result.code = 5)
          ↔ ∃ line ∈ Text.lines "a".toList,
              ∃ run, run <:+: beforeComment line
                ∧ (∀ c ∈ run, CharClass.isWordChar c)
                ∧ max limit 0 < run.length) := by
  intro limit
  have unwritten : writtenBuild { word := some limit } "a" = .error Text.tooLongMessage :=
    writtenBuild_of_isBrokenOff (by decide +kernel)
  refine ⟨unwritten, ?_⟩
  have long
      : ∃ line ∈ Text.lines "a".toList,
          ∃ run, run <:+: beforeComment line
            ∧ (∀ c ∈ run, CharClass.isWordChar c)
            ∧ max limit 0 < run.length :=
    ⟨['a'], by decide, ['a'], by decide, List.forall_mem_singleton.mpr rfl, by decide +kernel⟩
  intro exact
  obtain ⟨result, written, _⟩ := exact.mpr long
  cases unwritten.symm.trans written

end ShaderReflection
