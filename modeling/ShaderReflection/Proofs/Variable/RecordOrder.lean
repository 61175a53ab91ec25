import Mathlib.Data.List.Nodup
import ShaderReflection.Proofs.Variable.StableOrder

/-! The order of a vertex record is the only one in which the variables without a location come
first as declared and the others follow by location, as declared where locations are equal.
-/

namespace ShaderReflection

-----------------------------------------------------------------------------------------
-- Stable sorts are unique
-----------------------------------------------------------------------------------------

section Unique

variable {α κ : Type} [PartialOrder κ] {key : α → κ} {a b : α} {original sorted other : List α}

/-- The head of a sorted list has a key that is no higher than that of any element. -/
theorem key_head_le (ordered : (a :: sorted).Pairwise fun v w => key v ≤ key w)
    (member : b ∈ a :: sorted)
    : key a ≤ key b := by
  rcases List.mem_cons.mp member with rfl | later
  · exact le_rfl
  · exact (List.pairwise_cons.mp ordered).1 b later

variable [DecidableEq κ]

/-- Sorted lists with the same elements of each key are equal, by induction along the first: both
heads have the least key, and they are the first elements of that key.
-/
theorem eq_of_filter_key_eq (ordered : sorted.Pairwise fun v w => key v ≤ key w)
    (otherOrdered : other.Pairwise fun v w => key v ≤ key w)
    (same : ∀ k, (sorted.filter fun v => key v = k) = other.filter fun v => key v = k)
    : sorted = other := by
  have member {l m : List α} {v : α}
      (same : ∀ k, (l.filter fun v => key v = k) = m.filter fun v => key v = k) (among : v ∈ l)
      : v ∈ m := by
    have kept : v ∈ l.filter fun w => key w = key v := by simp [among]
    rw [same] at kept
    exact (List.mem_filter.mp kept).1
  induction sorted generalizing other with
  | nil =>
      cases other with
      | nil => rfl
      | cons b rest => exact absurd (member (fun k => (same k).symm) List.mem_cons_self) (by simp)
  | cons a rest ih =>
      cases other with
      | nil => exact absurd (member same List.mem_cons_self) (by simp)
      | cons b more =>
          have sameKey : key a = key b :=
            le_antisymm
              (key_head_le ordered (member (fun k => (same k).symm) List.mem_cons_self))
              (key_head_le otherOrdered (member same List.mem_cons_self))
          obtain rfl : a = b := by
            have heads := same (key a)
            rw [List.filter_cons_of_pos (by simp), List.filter_cons_of_pos (by simp [sameKey])]
              at heads
            exact (List.cons.inj heads).1
          refine congrArg (a :: ·) (ih ordered.of_cons otherOrdered.of_cons ?_)
          intro k
          have tails := same k
          by_cases here : key a = k
          · rw [List.filter_cons_of_pos (by simp [here]), List.filter_cons_of_pos (by simp [here])]
              at tails
            exact (List.cons.inj tails).2
          · rw [List.filter_cons_of_neg (by simp [here]), List.filter_cons_of_neg (by simp [here])]
              at tails
            exact tails

/-- A list has only one stable sort. -/
theorem StablySorted.unique (h : StablySorted key sorted original)
    (k : StablySorted key other original)
    : sorted = other :=
  eq_of_filter_key_eq h.ordered k.ordered fun key => (h.stable key).trans (k.stable key).symm

end Unique

namespace Variable

-----------------------------------------------------------------------------------------
-- What the order of a vertex record is
-----------------------------------------------------------------------------------------

/-- The variables of a list in the order of a vertex record: those without a location come first, as
declared, and the others follow by ascending location, as declared where locations are equal.
-/
structure RecordOrder (ordered declared : List Variable) : Prop where
  perm : ordered.Perm declared
  free
    : ordered
      = (declared.filter fun v => v.location = unlocated)
        ++ ordered.filter fun v => v.location ≠ unlocated
  ascending
    : (ordered.filter fun v => v.location ≠ unlocated).Pairwise fun v w => v.location ≤ w.location
  stable
    : ∀ location,
        (ordered.filter fun v => v.location = location)
        = declared.filter fun v => v.location = location

variable {ordered other declared : List Variable} {v w : Variable}

/-- The location alone tells whether there is one. -/
theorem sortKey_eq_iff : v.sortKey = w.sortKey ↔ v.location = w.location := by
  simp only [sortKey, isLocated, EmbeddingLike.apply_eq_iff_eq, Prod.mk.injEq]
  constructor
  · exact And.right
  · intro same
    exact ⟨by rw [same], same⟩

theorem sortKey_le_of_free (free : v.location = unlocated) : v.sortKey ≤ w.sortKey := by
  rw [← precedes_iff]
  simp [precedes, isLocated, free]

theorem sortKey_le_iff_of_located (left : v.location ≠ unlocated) (right : w.location ≠ unlocated)
    : v.sortKey ≤ w.sortKey ↔ v.location ≤ w.location := by
  have first : v.isLocated = true := by simp [isLocated, left]
  have second : w.isLocated = true := by simp [isLocated, right]
  rw [← precedes_iff]
  simp [precedes, first, second]

theorem free_of_sortKey_le (before : v.sortKey ≤ w.sortKey) (free : w.location = unlocated)
    : v.location = unlocated := by
  have second : w.isLocated = false := by simp [isLocated, free]
  rw [← precedes_iff] at before
  cases first : v.isLocated with
  | true => simp [precedes, first, second] at before
  | false => exact location_of_not_isLocated first

/-- The order of a vertex record sorts by the key, in the part without locations, in the part with
locations and across them.
-/
theorem RecordOrder.stablySorted (h : RecordOrder ordered declared)
    : StablySorted sortKey ordered declared where
  perm := h.perm
  ordered := by
    have freeFirst : ∀ v ∈ declared.filter fun v => v.location = unlocated,
        v.location = unlocated := by
      intro v member
      simpa using (List.mem_filter.mp member).2
    have locatedLast : ∀ v ∈ ordered.filter fun v => v.location ≠ unlocated,
        v.location ≠ unlocated := by
      intro v member
      simpa using (List.mem_filter.mp member).2
    rw [h.free, List.pairwise_append]
    refine ⟨?_, ?_, ?_⟩
    · exact List.pairwise_of_forall_mem_list fun v hv w _ => sortKey_le_of_free (freeFirst v hv)
    · refine h.ascending.imp_of_mem ?_
      intro v w hv hw before
      exact (sortKey_le_iff_of_located (locatedLast v hv) (locatedLast w hw)).mpr before
    · exact fun v hv w _ => sortKey_le_of_free (freeFirst v hv)
  stable := by
    intro k
    have cut (l : List Variable)
        : (l.filter fun v => v.sortKey = k)
          = (l.filter fun v => v.location = (ofLex k).2).filter fun v => v.sortKey = k := by
      rw [List.filter_filter]
      apply List.filter_congr
      intro v _
      by_cases here : v.sortKey = k
      · have location : v.location = (ofLex k).2 := by
          rw [← here]
          rfl
        simp [here, location]
      · simp [here]
    rw [cut ordered, cut declared, h.stable]

/-- Variables with the same location are those with the same key. -/
theorem filter_location_eq (location : Int) (l : List Variable)
    : (l.filter fun v => v.location = location)
      = l.filter fun v => v.sortKey = toLex (location != unlocated, location) := by
  apply List.filter_congr
  intro v _
  have same := @sortKey_eq_iff v { v with location }
  exact decide_eq_decide.mpr same.symm

/-- A list whose elements with a property come first is made of these and the others, by induction
along it. -/
theorem eq_filter_append {α : Type} {p : α → Bool} {l : List α}
    (first : l.Pairwise fun v w => p w → p v)
    : l = l.filter p ++ l.filter fun v => !p v := by
  induction l with
  | nil => rfl
  | cons a rest ih =>
      obtain ⟨before, later⟩ := List.pairwise_cons.mp first
      cases here : p a with
      | true =>
          rw [List.filter_cons_of_pos here, List.filter_cons_of_neg (by simp [here]),
            List.cons_append, ← ih later]
      | false =>
          have none : ∀ v ∈ a :: rest, p v = false := by
            intro v member
            rcases List.mem_cons.mp member with rfl | behind
            · exact here
            · exact Bool.eq_false_iff.mpr fun found => by simp [before v behind found] at here
          rw [List.filter_eq_nil_iff.mpr (by simpa using none),
            List.filter_eq_self.mpr (by simpa using none), List.nil_append]

/-- The arranged variables stand in the order of a vertex record. Witness: they are sorted by the
key, which puts those without a location first.
-/
theorem recordOrder_arrange (inputs : List Variable) : RecordOrder (arrange inputs) inputs := by
  have sorted := stablySorted_arrange inputs
  have stable (location : Int)
      : ((arrange inputs).filter fun v => v.location = location)
        = inputs.filter fun v => v.location = location := by
    rw [filter_location_eq, filter_location_eq]
    exact sorted.stable _
  refine ⟨sorted.perm, ?_, ?_, stable⟩
  · have freeFirst : (arrange inputs).Pairwise fun v w =>
        decide (w.location = unlocated) → decide (v.location = unlocated) := by
      refine sorted.ordered.imp ?_
      intro v w before
      simpa using free_of_sortKey_le before
    have cut := eq_filter_append freeFirst
    rw [stable] at cut
    simpa using cut
  · refine (sorted.ordered.filter _).imp_of_mem ?_
    intro v w hv hw before
    refine (sortKey_le_iff_of_located ?_ ?_).mp before
    · simpa using (List.mem_filter.mp hv).2
    · simpa using (List.mem_filter.mp hw).2

/-- The arranged variables are the only ones in the order of a vertex record. -/
theorem recordOrder_iff : RecordOrder ordered declared ↔ ordered = arrange declared := by
  constructor
  · intro h
    exact h.stablySorted.unique (stablySorted_arrange declared)
  · rintro rfl
    exact recordOrder_arrange declared

theorem arrange_arrange (inputs : List Variable) : arrange (arrange inputs) = arrange inputs := by
  refine List.mergeSort_of_pairwise ?_
  exact (stablySorted_arrange inputs).ordered.imp fun before => (precedes_iff _ _).mpr before

-----------------------------------------------------------------------------------------
-- Variables declared in another order
-----------------------------------------------------------------------------------------

variable {inputs others : List Variable}

theorem arrange_perm_of_perm (perm : inputs.Perm others) : (arrange inputs).Perm (arrange others) :=
  (stablySorted_arrange inputs).perm.trans (perm.trans (stablySorted_arrange others).perm.symm)

/-- Where no location occurs twice, no two variables have the same key, so only one order is sorted.
-/
theorem arrange_eq_of_perm (perm : inputs.Perm others) (distinct : (inputs.map location).Nodup)
    : arrange inputs = arrange others := by
  refine List.Perm.eq_of_pairwise ?_ (stablySorted_arrange inputs).ordered
    (stablySorted_arrange others).ordered (arrange_perm_of_perm perm)
  intro v w hv hw before behind
  have left : v ∈ inputs := (stablySorted_arrange inputs).perm.mem_iff.mp hv
  have right : w ∈ inputs := perm.mem_iff.mpr ((stablySorted_arrange others).perm.mem_iff.mp hw)
  exact List.inj_on_of_nodup_map distinct left right
    (sortKey_eq_iff.mp (le_antisymm before behind))

/-- The keys of arranged variables do not depend on the order of declaration, as their order is
total; hence neither do the locations.
-/
theorem location_arrange_of_perm (perm : inputs.Perm others)
    : (arrange inputs).map location = (arrange others).map location := by
  have ordered (l : List Variable) : ((arrange l).map sortKey).Pairwise (· ≤ ·) :=
    List.pairwise_map.mpr (stablySorted_arrange l).ordered
  have keys : (arrange inputs).map sortKey = (arrange others).map sortKey :=
    List.Perm.eq_of_pairwise (fun _ _ _ _ => le_antisymm) (ordered inputs) (ordered others)
      ((arrange_perm_of_perm perm).map sortKey)
  have locations := congrArg (List.map fun k => (ofLex k).2) keys
  rw [List.map_map, List.map_map] at locations
  exact locations

end Variable

end ShaderReflection
