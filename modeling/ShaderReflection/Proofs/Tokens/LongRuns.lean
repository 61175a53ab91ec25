import Mathlib.Data.List.Infix
import ShaderReflection.Proofs.Tokens.TextTokens

/-! Long runs of word characters in a text. The first run that is longer than a limit is the first
token that is, since the tokens are the maximal runs.
-/

namespace ShaderReflection

open CharClass

namespace Text

/-- The longest runs of word characters that start at the places of a line before its comment, in
reading order. Where another character stands the run is empty. -/
def wordRunsOfLine (line : List Char) : List (List Char) :=
  (beforeComment line).tails.map (List.takeWhile isWordChar)

/-- The runs of word characters in a text, line by line. -/
def wordRuns (cs : List Char) : List (List Char) :=
  (Text.lines cs).flatMap wordRunsOfLine

/-- Whether a run is longer than a limit. A limit that is negative admits as much as zero. -/
def isLong (limit : Int) (run : List Char) : Bool :=
  max limit 0 < run.length

variable {limit : Int}

/-- A line has a long run somewhere exactly if the longest run from some place on is long. -/
theorem exists_long_infix_iff (cs : List Char)
    : (∃ run, run <:+: cs ∧ (∀ c ∈ run, isWordChar c) ∧ isLong limit run)
      ↔ ∃ run ∈ cs.tails.map (List.takeWhile isWordChar), isLong limit run := by
  constructor
  · rintro ⟨run, ⟨before, behind, rfl⟩, inWord, long⟩
    refine ⟨_, List.mem_map.mpr ⟨run ++ behind, ?_, rfl⟩, ?_⟩
    · rw [List.mem_tails, List.append_assoc]
      exact List.suffix_append before _
    · rw [List.takeWhile_append_of_pos inWord]
      simp only [isLong, decide_eq_true_eq, List.length_append, Int.natCast_add] at long ⊢
      omega
  · rintro ⟨_, member, long⟩
    obtain ⟨rest, suffix, rfl⟩ := List.mem_map.mp member
    refine ⟨_, ?_, List.all_eq_true.mp List.all_takeWhile, long⟩
    exact (List.takeWhile_prefix _).isInfix.trans (List.mem_tails _ _ |>.mp suffix).isInfix

/-- A run that is not long, and its later parts, are passed over. By induction along the run. -/
theorem find?_tails_append {run behind : List Char} (inWord : ∀ c ∈ run, isWordChar c)
    (ends : ∀ c ∈ behind.head?, isWordChar c = false) (short : isLong limit run = false)
    : ((run ++ behind).tails.map (List.takeWhile isWordChar)).find? (isLong limit)
      = (behind.tails.map (List.takeWhile isWordChar)).find? (isLong limit) := by
  induction run with
  | nil => rfl
  | cons c rest ih =>
      have whole : (c :: rest ++ behind).takeWhile isWordChar = c :: rest := by
        rw [List.takeWhile_append_of_pos inWord]
        cases behind with
        | nil => simp
        | cons d more => simp [ends d (by simp)]
      have shorter : isLong limit rest = false := by
        simp only [isLong, List.length_cons, decide_eq_false_iff_not] at short ⊢
        omega
      rw [List.cons_append, List.tails_cons, List.map_cons, ← List.cons_append, whole,
        List.find?_cons_of_neg (by simp [short])]
      exact ih (fun d member => inWord d (by simp [member])) shorter

end Text

namespace Token

open Text

variable {limit : Int}

/-- The characters of a token that is a word. -/
def word? : Token → Option (List Char)
  | .word text => some text.toList
  | .mark _ => none

/-- The words among some tokens. -/
def words (tokens : List Token) : List (List Char) :=
  tokens.filterMap word?

/-- A pending word that is not long is passed over. -/
theorem find?_words_ofPending {word : List Char} (short : isLong limit word = false)
    (tokens : List Token)
    : (words (ofPending word ++ tokens)).find? (isLong limit)
      = (words tokens).find? (isLong limit) := by
  unfold ofPending
  split
  · rfl
  · simp [words, word?, short]

/-- The first long run is the first long word among the tokens, by induction from token to token. -/
theorem find?_tails_eq_runs (cs : List Char)
    : (cs.tails.map (List.takeWhile isWordChar)).find? (isLong limit)
      = (words (runs cs)).find? (isLong limit) := by
  have nothing : isLong limit [] = false := by
    simp only [isLong, List.length_nil, decide_eq_false_iff_not]
    omega
  have skipped {c : Char} {rest : List Char} (stops : isWordChar c = false)
      : ((c :: rest).tails.map (List.takeWhile isWordChar)).find? (isLong limit)
        = (rest.tails.map (List.takeWhile isWordChar)).find? (isLong limit) := by
    rw [List.tails_cons, List.map_cons, List.takeWhile_cons_of_neg (by simp [stops]),
      List.find?_cons_of_neg (by simp [nothing])]
  fun_induction runs cs with
  | case1 => simp [nothing, words]
  | case2 c rest mark isMark ih =>
      rw [skipped (by simp [isWordChar, isMark]), ih]
      rfl
  | case3 c rest noMark separates ih =>
      rw [skipped (by simp [isWordChar, separates]), ih]
  | case4 c rest noMark noSeparator ih =>
      have first : isWordChar c := by simp [isWordChar, noMark, noSeparator]
      have inWord : ∀ d ∈ c :: rest.takeWhile isWordChar, isWordChar d :=
        List.forall_mem_cons.mpr ⟨first, List.all_eq_true.mp List.all_takeWhile⟩
      have cut : c :: rest = (c :: rest.takeWhile isWordChar) ++ rest.dropWhile isWordChar := by
        rw [List.cons_append, List.takeWhile_append_dropWhile]
      have ends : ∀ d ∈ (rest.dropWhile isWordChar).head?, isWordChar d = false := by
        have stopped := List.head?_dropWhile_not isWordChar rest
        intro d member
        rw [Option.mem_def.mp member] at stopped
        exact stopped
      have word : word? (.word (String.ofList (c :: rest.takeWhile isWordChar)))
          = some (c :: rest.takeWhile isWordChar) := by
        simp [word?]
      rw [words, List.filterMap_cons_some word]
      cases long : isLong limit (c :: rest.takeWhile isWordChar) with
      | true =>
          rw [List.tails_cons, List.map_cons, List.takeWhile_cons_of_pos first,
            List.find?_cons_of_pos long, List.find?_cons_of_pos long]
      | false =>
          rw [List.find?_cons_of_neg (by simp [long]), cut, find?_tails_append inWord ends long, ih]
          rfl

/-- The first long run of a text is the first long word among its tokens. -/
theorem find?_wordRuns (cs : List Char)
    : (wordRuns cs).find? (isLong limit) = (words (ofText cs)).find? (isLong limit) := by
  rw [wordRuns, List.find?_flatMap, ofText, words, List.filterMap_flatten, List.find?_flatten,
    List.map_map, List.findSome?_map]
  congr 1
  funext line
  exact find?_tails_eq_runs (beforeComment line)

theorem ofPending_append {word : List Char} (nonempty : word ≠ []) (tokens : List Token)
    : ofPending word ++ tokens = .word (String.ofList (word ++ [])) :: tokens := by
  rw [ofPending, if_neg nonempty, List.append_nil]
  rfl

/-- A pending word is the beginning of the next token, by induction along the text. -/
theorem scanning_of_pending {word : List Char} (nonempty : word ≠ []) (comment : Bool)
    (cs : List Char)
    : ∃ more tokens,
        scanning comment word cs = .word (String.ofList (word ++ more)) :: tokens := by
  induction cs generalizing comment word with
  | nil => exact ⟨[], [], by rw [← ofPending_append nonempty, List.append_nil, scanning]⟩
  | cons c rest ih =>
      rw [scanning]
      split
      · exact ⟨[], _, ofPending_append nonempty _⟩
      · split
        · exact ih nonempty true
        · split
          · exact ⟨[], _, ofPending_append nonempty _⟩
          · exact ⟨[], _, ofPending_append nonempty _⟩
          · exact ⟨[], _, ofPending_append nonempty _⟩
          · have longer : word ++ [c] ≠ [] := by simp
            obtain ⟨more, tokens, later⟩ := ih longer false
            exact ⟨c :: more, tokens, by simpa using later⟩

end Token

end ShaderReflection
