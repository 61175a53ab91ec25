/-! Finite maps that list their keys in the order in which the keys were first set.
The views are `entries` for the order and `get?` for the contents.
-/

namespace ShaderReflection

/-- A finite map whose entries stand in the order in which their keys were first set. -/
structure OrderedMap (κ α : Type) where
  /-- Keys with their values, first key first. -/
  entries : List (κ × α) := []
  /-- No key occurs twice. -/
  nodup : (entries.map Prod.fst).Nodup := by simp

namespace OrderedMap

variable {κ α : Type}

instance : EmptyCollection (OrderedMap κ α) := ⟨{}⟩

instance : Inhabited (OrderedMap κ α) := ⟨∅⟩

/-- Two maps with the same entries in the same order are equal. -/
@[ext]
theorem ext {m n : OrderedMap κ α} (h : m.entries = n.entries) : m = n := by
  cases m
  cases n
  cases h
  rfl

instance [DecidableEq κ] [DecidableEq α] : DecidableEq (OrderedMap κ α) := fun m n =>
  if h : m.entries = n.entries then isTrue (ext h) else isFalse fun e => h (e ▸ rfl)

/-- The keys, in the order in which they were first set. -/
def keys (m : OrderedMap κ α) : List κ :=
  m.entries.map Prod.fst

/-- No key of a map is listed twice. -/
theorem keys_nodup (m : OrderedMap κ α) : m.keys.Nodup :=
  m.nodup

/-- A map without entries. -/
def isEmpty (m : OrderedMap κ α) : Bool :=
  m.entries.isEmpty

variable [DecidableEq κ]

/-- The value at a key. -/
def get? (m : OrderedMap κ α) (key : κ) : Option α :=
  m.entries.lookup key

/-- The value at a key, or a default. -/
def getD (m : OrderedMap κ α) (key : κ) (default : α) : α :=
  (m.get? key).getD default

/-- Whether a key is set. -/
def contains (m : OrderedMap κ α) (key : κ) : Bool :=
  decide (key ∈ m.keys)

/-- Changes the value at a key, if that key is set. -/
def modify (m : OrderedMap κ α) (key : κ) (f : α → α) : OrderedMap κ α where
  entries := m.entries.map fun e => if e.1 = key then (e.1, f e.2) else e
  nodup := by
    have same : (Prod.fst ∘ fun e : κ × α => if e.1 = key then (e.1, f e.2) else e)
        = Prod.fst := by
      funext e
      simp only [Function.comp_apply]
      split <;> rfl
    rw [List.map_map, same]
    exact m.nodup

/-- Sets a key that is not yet set, behind all others; a key that is set keeps its value. -/
def insertIfNew (m : OrderedMap κ α) (key : κ) (value : α) : OrderedMap κ α :=
  if h : key ∈ m.keys then m
  else {
    entries := m.entries ++ [(key, value)]
    nodup := by
      rw [List.map_append, List.nodup_append]
      refine ⟨m.nodup, by simp, ?_⟩
      intro a ha b hb same
      rw [List.map_singleton, List.mem_singleton] at hb
      subst same hb
      exact h ha }

/-- Sets a key. A key that was set before keeps its position. -/
def insert (m : OrderedMap κ α) (key : κ) (value : α) : OrderedMap κ α :=
  if key ∈ m.keys then m.modify key (fun _ => value) else m.insertIfNew key value

/-- The map that results from setting the given keys one after another. -/
def ofList (entries : List (κ × α)) : OrderedMap κ α :=
  entries.foldl (fun m e => m.insert e.1 e.2) ∅

end OrderedMap

end ShaderReflection
