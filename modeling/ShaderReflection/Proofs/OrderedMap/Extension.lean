import ShaderReflection.OrderedMap.Lemmas

/-! Maps that only grow: no key is lost or moved, and what stands at a key is only added to. -/

namespace ShaderReflection.OrderedMap

variable {κ α β : Type} [DecidableEq κ] {view : α → List β} {m n o : OrderedMap κ α}

/-- The second map has the keys of the first at their positions, and perhaps further keys behind
them; at a key of the first map it has a value that begins like the one there, as lists of some
kind.
-/
structure Extends (view : α → List β) (m n : OrderedMap κ α) : Prop where
  keys : m.keys <+: n.keys
  values
    : ∀ key value, m.get? key = some value
        → ∃ later, n.get? key = some later ∧ view value <+: view later

theorem Extends.refl (view : α → List β) (m : OrderedMap κ α) : m.Extends view m where
  keys := List.prefix_rfl
  values := fun _ value found => ⟨value, found, List.prefix_rfl⟩

theorem Extends.trans (h : m.Extends view n) (k : n.Extends view o) : m.Extends view o where
  keys := h.keys.trans k.keys
  values := by
    intro key value found
    obtain ⟨later, there, begins⟩ := h.values key value found
    obtain ⟨last, atEnd, further⟩ := k.values key later there
    exact ⟨last, atEnd, begins.trans further⟩

/-- A change of one value extends a map if it only adds to the value. -/
theorem extends_modify (m : OrderedMap κ α) (key : κ) {f : α → α}
    (adds : ∀ value, view value <+: view (f value))
    : m.Extends view (m.modify key f) where
  keys := by simp only [keys_modify, List.prefix_rfl]
  values := by
    intro other value found
    rw [get?_modify, found]
    split
    · exact ⟨f value, rfl, adds value⟩
    · exact ⟨value, rfl, List.prefix_rfl⟩

/-- A key that is set only if it is new comes behind the others and changes none of them. -/
theorem extends_insertIfNew (view : α → List β) (m : OrderedMap κ α) (key : κ) (value : α)
    : m.Extends view (m.insertIfNew key value) where
  keys := by
    rw [keys_insertIfNew]
    split
    · exact List.prefix_rfl
    · exact List.prefix_append _ _
  values := by
    intro other old found
    rw [get?_insertIfNew]
    split
    · next same =>
        subst same
        exact ⟨old, by rw [found, Option.getD_some], List.prefix_rfl⟩
    · exact ⟨old, found, List.prefix_rfl⟩

/-- Setting a key extends a map if the new value begins like the one that it replaces. -/
theorem extends_insert (m : OrderedMap κ α) (key : κ) {value : α}
    (adds : ∀ old, m.get? key = some old → view old <+: view value)
    : m.Extends view (m.insert key value) where
  keys := by
    rw [keys_insert]
    split
    · exact List.prefix_rfl
    · exact List.prefix_append _ _
  values := by
    intro other old found
    rw [get?_insert]
    split
    · next same =>
        subst same
        exact ⟨value, rfl, adds old found⟩
    · exact ⟨old, found, List.prefix_rfl⟩

end ShaderReflection.OrderedMap
