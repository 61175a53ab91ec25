import Mathlib.Algebra.BigOperators.Intervals
import ShaderReflection.Buffer
import ShaderReflection.Scanner.Token

/-! Parts of a text by their positions: comments, the brace that closes another one, the characters
between two positions, and texts joined by spaces.
-/

namespace ShaderReflection.Text

variable {cs : List Char} {i n : Nat} {c : Char}

-----------------------------------------------------------------------------------------
-- Comments and braces
-----------------------------------------------------------------------------------------

/-- Whether two adjacent slashes stand at a position. -/
def startsComment (cs : List Char) (n : Nat) : Bool :=
  cs[n]? == some '/' && cs[n + 1]? == some '/'

/-- Whether a position lies in a comment: two adjacent slashes start one, and it ends with its
line. -/
def inComment (cs : List Char) : Nat → Bool
  | 0 => startsComment cs 0
  | n + 1 => cs[n + 1]? != some '\n' && (inComment cs n || startsComment cs (n + 1))

/-- What a character outside comments adds to the number of open braces. -/
def weight : Char → Int
  | '{' => 1
  | '}' => -1
  | _ => 0

/-- What the character at a position adds to the number of open braces. -/
def braceWeight (cs : List Char) (n : Nat) : Int :=
  if inComment cs n then 0 else (cs[n]?.map weight).getD 0

/-- The opening braces less the closing ones, outside comments, from a position up to another. -/
def braceCount (cs : List Char) (i n : Nat) : Int :=
  ∑ m ∈ Finset.Ico i n, braceWeight cs m

/-- Whether the character at a position is a closing brace outside comments with which the count
from the brace at `i` on is zero.
-/
def Balances (cs : List Char) (i n : Nat) : Prop :=
  i < n ∧ cs[n]? = some '}' ∧ inComment cs n = false ∧ braceCount cs i (n + 1) = 0

instance (cs : List Char) (i n : Nat) : Decidable (Balances cs i n) :=
  inferInstanceAs (Decidable (_ ∧ _ ∧ _ ∧ _))

/-- The position of the brace that closes the one at `i`: the first to balance it. -/
def closing? (cs : List Char) (i : Nat) : Option Nat :=
  (List.range cs.length).find? fun n => Balances cs i n

theorem closing?_eq_some_iff
    : closing? cs i = some n ↔ Balances cs i n ∧ ∀ m < n, ¬Balances cs i m := by
  rw [closing?, List.find?_range_eq_some]
  constructor
  · rintro ⟨balances, _, first⟩
    exact ⟨by simpa using balances, by simpa using first⟩
  · rintro ⟨balances, first⟩
    have inside : n < cs.length := (List.getElem?_eq_some_iff.mp balances.2.1).1
    exact ⟨by simpa using balances, by simpa using inside, by simpa using first⟩

theorem closing?_eq_none_iff : closing? cs i = none ↔ ∀ n, ¬Balances cs i n := by
  rw [closing?, List.find?_eq_none]
  constructor
  · intro absent n balances
    have inside : n < cs.length := (List.getElem?_eq_some_iff.mp balances.2.1).1
    exact absent n (by simpa using inside) (by simpa using balances)
  · intro absent n _
    simpa using absent n

theorem braceCount_self (cs : List Char) (i : Nat) : braceCount cs i i = 0 := by
  simp [braceCount]

theorem braceCount_succ (behind : i ≤ n)
    : braceCount cs i (n + 1) = braceCount cs i n + braceWeight cs n :=
  Finset.sum_Ico_succ_top behind _

theorem weight_of_not_mark (plain : Mark.ofChar? c = none) : weight c = 0 := by
  unfold weight
  split
  · cases plain
  · cases plain
  · rfl

theorem weight_eq_one_iff : weight c = 1 ↔ c = '{' := by
  unfold weight
  split <;> simp_all

theorem weight_eq_neg_one_iff : weight c = -1 ↔ c = '}' := by
  unfold weight
  split <;> simp_all

theorem braceWeight_eq_one_iff
    : braceWeight cs n = 1 ↔ cs[n]? = some '{' ∧ inComment cs n = false := by
  unfold braceWeight
  cases inComment cs n <;> cases cs[n]? <;> simp [weight_eq_one_iff]

theorem braceWeight_eq_neg_one_iff
    : braceWeight cs n = -1 ↔ cs[n]? = some '}' ∧ inComment cs n = false := by
  unfold braceWeight
  cases inComment cs n <;> cases cs[n]? <;> simp [weight_eq_neg_one_iff]

-----------------------------------------------------------------------------------------
-- The characters between two positions
-----------------------------------------------------------------------------------------

/-- The characters from a position up to another. -/
def slice (cs : List Char) (i n : Nat) : List Char :=
  (cs.take n).drop i

/-- The characters that a captured source keeps. -/
def kept (cs : List Char) : List Char :=
  cs.filter fun c => !Buffer.isLeftOut c

theorem slice_self (cs : List Char) (i : Nat) : slice cs i i = [] := by
  simp [slice]

theorem slice_succ (behind : i ≤ n) (found : cs[n]? = some c)
    : slice cs i (n + 1) = slice cs i n ++ [c] := by
  have inside : n < cs.length := (List.getElem?_eq_some_iff.mp found).1
  rw [slice, List.take_add_one, found, Option.toList_some,
    List.drop_append_of_le_length (by rw [List.length_take]; omega), slice]

theorem kept_slice_succ (behind : i ≤ n) (found : cs[n]? = some c)
    : kept (slice cs i (n + 1))
      = kept (slice cs i n) ++ if Buffer.isLeftOut c then [] else [c] := by
  rw [slice_succ behind found, kept, List.filter_append]
  cases leftOut : Buffer.isLeftOut c <;> simp [kept, leftOut]

theorem kept_slice_length_mono (i : Nat) {m n : Nat} (before : m ≤ n)
    : (kept (slice cs i m)).length ≤ (kept (slice cs i n)).length := by
  have start : cs.take m <+: cs.take n := List.take_prefix_take_left before
  exact ((start.drop i).filter _).length_le

/-- Where more is kept than a limit, a character is kept behind as many as the limit allows. By
induction over the end: the last character is such a one, or it can be left away.
-/
theorem exists_kept_behind {limit : Nat} (behind : i ≤ n) (inText : n ≤ cs.length)
    (long : limit < (kept (slice cs i n)).length)
    : ∃ m c, i ≤ m ∧ m < n ∧ cs[m]? = some c ∧ Buffer.isLeftOut c = false
        ∧ limit ≤ (kept (slice cs i m)).length := by
  induction n, behind using Nat.le_induction with
  | base =>
      rw [slice_self] at long
      exact absurd long (Nat.not_lt_zero limit)
  | succ n behind ih =>
      have found : cs[n]? = some cs[n] := List.getElem?_eq_getElem inText
      by_cases already : limit < (kept (slice cs i n)).length
      · obtain ⟨m, c, after, before, rest⟩ := ih (by omega) already
        exact ⟨m, c, after, by omega, rest⟩
      · rw [kept_slice_succ behind found, List.length_append] at long
        cases leftOut : Buffer.isLeftOut cs[n] with
        | true =>
            simp only [leftOut, if_true, List.length_nil] at long
            omega
        | false =>
            simp only [leftOut, Bool.false_eq_true, if_false, List.length_singleton] at long
            exact ⟨n, cs[n], behind, by omega, found, leftOut, by omega⟩

-----------------------------------------------------------------------------------------
-- Joined texts
-----------------------------------------------------------------------------------------

/-- Texts joined by single spaces. There is nothing to join without texts. -/
def joined : List String → Option String
  | [] => none
  | texts => some (" ".intercalate texts)

/-- A text that may be missing, followed by another one that may be missing. -/
def merge : Option String → Option String → Option String
  | some first, some second => some (first ++ " " ++ second)
  | some first, none => some first
  | none, second => second

theorem merge_none (text : Option String) : merge text none = text := by
  cases text <;> rfl

theorem merge_assoc (a b c : Option String) : merge (merge a b) c = merge a (merge b c) := by
  cases a <;> cases b <;> cases c <;> simp [merge, String.append_assoc]

/-- Joining two lists of texts is merging what each of them joins to. -/
theorem joined_append (texts others : List String)
    : joined (texts ++ others) = merge (joined texts) (joined others) := by
  cases texts with
  | nil => rfl
  | cons text rest =>
      cases others with
      | nil => rw [List.append_nil]; rfl
      | cons other more =>
          have both := String.intercalate_append_of_ne_nil (s := " ")
            (List.cons_ne_nil text rest) (List.cons_ne_nil other more)
          exact congrArg some both

end ShaderReflection.Text
