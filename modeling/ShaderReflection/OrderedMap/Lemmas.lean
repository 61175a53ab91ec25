import ShaderReflection.OrderedMap

/-! What the operations of an ordered map do to its two views, the order of the keys and the value
at each key.
-/

namespace ShaderReflection.OrderedMap

variable {κ α : Type} [DecidableEq κ]

/-! ## Order of the keys -/

/-- A change of values keeps the keys. -/
@[simp]
theorem keys_modify (m : OrderedMap κ α) (key : κ) (f : α → α)
    : (m.modify key f).keys = m.keys := by
  have same : (Prod.fst ∘ fun e : κ × α => if e.1 = key then (e.1, f e.2) else e) = Prod.fst := by
    funext e
    simp only [Function.comp_apply]
    split <;> rfl
  simp only [keys, modify, List.map_map, same]

/-- A new key comes last; a known one stays where it is. -/
theorem keys_insertIfNew (m : OrderedMap κ α) (key : κ) (value : α)
    : (m.insertIfNew key value).keys = if key ∈ m.keys then m.keys else m.keys ++ [key] := by
  unfold insertIfNew
  split
  · rfl
  · simp [keys]

/-- Setting a key orders the keys like setting it only if it is new. -/
theorem keys_insert (m : OrderedMap κ α) (key : κ) (value : α)
    : (m.insert key value).keys = if key ∈ m.keys then m.keys else m.keys ++ [key] := by
  unfold insert
  split
  · exact keys_modify m key _
  · next absent => rw [keys_insertIfNew, if_neg absent]

/-! ## Values -/

/-- Exactly the keys of a map have a value. -/
theorem get?_isSome_iff (m : OrderedMap κ α) (key : κ)
    : (m.get? key).isSome ↔ key ∈ m.keys := by
  unfold get? keys
  induction m.entries with
  | nil => simp
  | cons e rest ih =>
      obtain ⟨first, value⟩ := e
      by_cases here : key = first
      · subst here
        simp
      · have skip : (key == first) = false := by simp [here]
        simp only [List.lookup_cons, skip, List.map_cons, List.mem_cons, here, false_or]
        exact ih

/-- A key without a value is not among the keys. -/
theorem get?_eq_none_iff (m : OrderedMap κ α) (key : κ)
    : m.get? key = none ↔ key ∉ m.keys := by
  rw [← get?_isSome_iff, Option.not_isSome_iff_eq_none]

/-- A change reaches the value at its key and no other. -/
theorem get?_modify (m : OrderedMap κ α) (key other : κ) (f : α → α)
    : (m.modify key f).get? other
      = if other = key then (m.get? other).map f else m.get? other := by
  change (m.entries.map fun e => if e.1 = key then (e.1, f e.2) else e).lookup other
    = if other = key then (m.entries.lookup other).map f else m.entries.lookup other
  induction m.entries with
  | nil => simp
  | cons e rest ih =>
      obtain ⟨first, value⟩ := e
      have changed : (if first = key then (first, f value) else (first, value))
          = (first, if first = key then f value else value) := by split <;> rfl
      simp only [List.map_cons, changed, List.lookup_cons]
      cases found : other == first with
      | false => exact ih
      | true =>
          have same : other = first := by simpa using found
          subst same
          simp only [Option.map_some]
          split <;> rfl

/-- A key that is set only if it is new gets its value then, and nothing else changes. -/
theorem get?_insertIfNew (m : OrderedMap κ α) (key other : κ) (value : α)
    : (m.insertIfNew key value).get? other
      = if other = key then some ((m.get? key).getD value) else m.get? other := by
  unfold insertIfNew
  split
  · next present =>
      split
      · next same =>
          subst same
          have hasValue := (get?_isSome_iff m other).mpr present
          cases found : m.get? other with
          | none => simp [found] at hasValue
          | some v => rfl
      · rfl
  · next absent =>
      have missing := (get?_eq_none_iff m key).mpr absent
      have lookupSplit : (m.entries ++ [(key, value)]).lookup other
          = (m.get? other).or ([(key, value)].lookup other) := by
        unfold get?
        exact List.lookup_append
      simp only [get?] at lookupSplit ⊢
      rw [lookupSplit]
      split
      · next same =>
          subst same
          simp only [get?] at missing
          simp [missing]
      · next different =>
          have skip : (other == key) = false := by simp [different]
          simp [List.lookup_cons, skip]

/-- A key that is set has its new value, and nothing else changes. -/
theorem get?_insert (m : OrderedMap κ α) (key other : κ) (value : α)
    : (m.insert key value).get? other = if other = key then some value else m.get? other := by
  unfold insert
  split
  · next present =>
      rw [get?_modify]
      split
      · next same =>
          subst same
          obtain ⟨v, found⟩ := Option.isSome_iff_exists.mp ((get?_isSome_iff m other).mpr present)
          simp [found]
      · rfl
  · next absent =>
      rw [get?_insertIfNew, (get?_eq_none_iff m key).mpr absent]
      rfl

end ShaderReflection.OrderedMap
