/-! Signed numbers of a fixed width: which integers they are, and which of them an integer wraps
around to.
-/

namespace ShaderReflection.SignedWord

/-- How many numbers have the given width in bits. -/
def count (bits : Nat) : Nat :=
  Nat.pow 2 bits

/-- Whether an integer is a signed number of the given width. -/
def fits (bits : Nat) (n : Int) : Bool :=
  decide (-count bits ≤ 2 * n) && decide (2 * n < count bits)

/-- The signed number of the given width that an integer differs from by a multiple of their
count. -/
def wrap (bits : Nat) (n : Int) : Int :=
  n.bmod (count bits)

/-- A number that has the width already is not changed. -/
theorem wrap_of_fits {bits : Nat} {n : Int} (h : fits bits n) : wrap bits n = n := by
  simp only [fits, Bool.and_eq_true, decide_eq_true_eq] at h
  exact Int.bmod_eq_of_le_mul_two (by omega) (by omega)

end ShaderReflection.SignedWord
