import Mathlib.Data.List.Nodup
import ShaderReflection.Proofs.OrderedMap.Entries

/-! Ordered maps under other keys. If different keys get different names, each operation on the map
is the same operation under the names.
-/

namespace ShaderReflection.OrderedMap

variable {κ ι α : Type} {name : κ → ι}

/-- The map in which each key has the name that a function gives it. -/
def mapKeys (name : κ → ι) (injective : Function.Injective name) (m : OrderedMap κ α)
    : OrderedMap ι α where
  entries := m.entries.map fun e => (name e.1, e.2)
  nodup := by
    have names : (m.entries.map fun e => (name e.1, e.2)).map Prod.fst = m.keys.map name := by
      rw [keys, List.map_map, List.map_map]
      rfl
    rw [names]
    exact m.nodup.map injective

theorem entries_mapKeys (injective : Function.Injective name) (m : OrderedMap κ α)
    : (m.mapKeys name injective).entries = m.entries.map fun e => (name e.1, e.2) :=
  rfl

@[simp]
theorem keys_mapKeys (injective : Function.Injective name) (m : OrderedMap κ α)
    : (m.mapKeys name injective).keys = m.keys.map name := by
  simp [keys, entries_mapKeys]

/-- A name is known exactly if its key is. -/
theorem mem_keys_mapKeys (injective : Function.Injective name) {m : OrderedMap κ α} {key : κ}
    : name key ∈ (m.mapKeys name injective).keys ↔ key ∈ m.keys := by
  rw [keys_mapKeys, List.mem_map_of_injective injective]

variable [DecidableEq κ] [DecidableEq ι]

theorem contains_mapKeys (injective : Function.Injective name) (m : OrderedMap κ α) (key : κ)
    : (m.mapKeys name injective).contains (name key) = m.contains key := by
  simp only [contains, mem_keys_mapKeys injective]

theorem get?_mapKeys (injective : Function.Injective name) (m : OrderedMap κ α) (key : κ)
    : (m.mapKeys name injective).get? (name key) = m.get? key := by
  simp only [get?, entries_mapKeys]
  induction m.entries with
  | nil => rfl
  | cons e rest ih =>
      obtain ⟨first, value⟩ := e
      have same : (name key == name first) = (key == first) :=
        Bool.eq_iff_iff.mpr (by simp [injective.eq_iff])
      simp only [List.map_cons, List.lookup_cons, same, ih]

theorem mapKeys_modify (injective : Function.Injective name) (m : OrderedMap κ α) (key : κ)
    (f : α → α)
    : (m.modify key f).mapKeys name injective = (m.mapKeys name injective).modify (name key) f := by
  apply ext
  simp only [entries_mapKeys, modify, List.map_map]
  apply List.map_congr_left
  intro e _
  simp only [Function.comp_apply, injective.eq_iff]
  split <;> rfl

theorem mapKeys_insertIfNew (injective : Function.Injective name) (m : OrderedMap κ α) (key : κ)
    (value : α)
    : (m.insertIfNew key value).mapKeys name injective
      = (m.mapKeys name injective).insertIfNew (name key) value := by
  by_cases known : key ∈ m.keys
  · have named := (mem_keys_mapKeys injective).mpr known
    simp only [insertIfNew, known, named, dite_true]
  · have unnamed := (mem_keys_mapKeys injective).not.mpr known
    apply ext
    simp only [insertIfNew, known, unnamed, dite_false, entries_mapKeys, List.map_append,
      List.map_cons, List.map_nil]

theorem mapKeys_insert (injective : Function.Injective name) (m : OrderedMap κ α) (key : κ)
    (value : α)
    : (m.insert key value).mapKeys name injective
      = (m.mapKeys name injective).insert (name key) value := by
  by_cases known : key ∈ m.keys
  · have named := (mem_keys_mapKeys injective).mpr known
    simp only [insert, known, named, if_true, mapKeys_modify]
  · have unnamed := (mem_keys_mapKeys injective).not.mpr known
    simp only [insert, known, unnamed, if_false, mapKeys_insertIfNew]

end ShaderReflection.OrderedMap
