import Mathlib.Data.Prod.Lex
import ShaderReflection.Variable

/-! The order of a vertex record is a stable sort: by whether a location is set, then by location,
and otherwise as declared.
-/

namespace ShaderReflection

/-- A list sorted by a key. Elements with the same key stand as in the original list. -/
structure StablySorted {α κ : Type} [LE κ] [DecidableEq κ] (key : α → κ) (sorted original : List α)
    : Prop where
  perm : sorted.Perm original
  ordered : sorted.Pairwise fun v w => key v ≤ key w
  stable : ∀ k, (sorted.filter fun v => key v = k) = original.filter fun v => key v = k

namespace Variable

/-- What a vertex record is sorted by. -/
def sortKey (v : Variable) : Bool ×ₗ Int :=
  toLex (v.isLocated, v.location)

theorem location_of_not_isLocated {v : Variable} (free : v.isLocated = false)
    : v.location = unlocated := by
  simpa [isLocated] using free

theorem precedes_iff (v w : Variable) : v.precedes w ↔ v.sortKey ≤ w.sortKey := by
  rw [sortKey, sortKey, Prod.Lex.toLex_le_toLex]
  unfold precedes
  cases first : v.isLocated <;> cases second : w.isLocated
  · simp [location_of_not_isLocated first, location_of_not_isLocated second]
  · simp
  · simp
  · simp

/-- The order of a vertex record is a stable sort. Witness: variables with one key stand in an order
that the sort need not change, so it keeps them as a sublist of the right length.
-/
theorem stablySorted_arrange (inputs : List Variable)
    : StablySorted sortKey (arrange inputs) inputs := by
  have trans (u v w : Variable) : u.precedes v → v.precedes w → u.precedes w := by
    simp only [precedes_iff]
    exact le_trans
  have total (v w : Variable) : v.precedes w || w.precedes v := by
    simp only [Bool.or_eq_true, precedes_iff]
    exact le_total _ _
  have perm : (arrange inputs).Perm inputs := List.mergeSort_perm inputs precedes
  refine ⟨perm, ?_, ?_⟩
  · have ordered := List.pairwise_mergeSort trans total inputs
    exact ordered.imp fun before => (precedes_iff _ _).mp before
  · intro k
    have alike : (inputs.filter fun v => v.sortKey = k).Pairwise fun v w => v.precedes w := by
      refine List.pairwise_of_forall_mem_list ?_
      intro v hv w hw
      have left : v.sortKey = k := by simpa using (List.mem_filter.mp hv).2
      have right : w.sortKey = k := by simpa using (List.mem_filter.mp hw).2
      rw [precedes_iff, left, right]
    have kept : (inputs.filter fun v => v.sortKey = k).Sublist (arrange inputs) :=
      List.sublist_mergeSort trans total alike List.filter_sublist
    have within := kept.filter fun v => v.sortKey = k
    rw [List.filter_filter] at within
    simp only [Bool.and_self] at within
    exact (within.eq_of_length (perm.filter _).length_eq.symm).symm

end Variable

end ShaderReflection
