import ShaderReflection.OrderedMap.Lemmas

/-! Ordered maps by their entries: which entry a key finds, maps under a change of all values, and
maps made from a list of entries.
-/

namespace ShaderReflection.OrderedMap

variable {κ α β : Type}

/-- The map with a function applied to every value. -/
def mapValues (f : α → β) (m : OrderedMap κ α) : OrderedMap κ β where
  entries := m.entries.map fun e => (e.1, f e.2)
  nodup := by
    rw [List.map_map]
    exact m.nodup

theorem entries_mapValues (f : α → β) (m : OrderedMap κ α)
    : (m.mapValues f).entries = m.entries.map fun e => (e.1, f e.2) :=
  rfl

@[simp]
theorem entries_empty : (∅ : OrderedMap κ α).entries = [] :=
  rfl

@[simp]
theorem keys_mapValues (f : α → β) (m : OrderedMap κ α) : (m.mapValues f).keys = m.keys := by
  simp [keys, mapValues]

variable [DecidableEq κ]

@[simp]
theorem get?_mapValues (f : α → β) (m : OrderedMap κ α) (key : κ)
    : (m.mapValues f).get? key = (m.get? key).map f := by
  simp only [get?, entries_mapValues]
  induction m.entries with
  | nil => rfl
  | cons e rest ih =>
      obtain ⟨first, value⟩ := e
      simp only [List.map_cons, List.lookup_cons]
      cases key == first with
      | true => rfl
      | false => exact ih

/-- The entry of a key is what the key finds, since no key has two entries. -/
theorem get?_of_mem {m : OrderedMap κ α} {e : κ × α} (member : e ∈ m.entries)
    : m.get? e.1 = some e.2 := by
  obtain ⟨entries, nodup⟩ := m
  change entries.lookup e.1 = some e.2
  induction entries with
  | nil => exact absurd member List.not_mem_nil
  | cons first rest ih =>
      rw [List.map_cons, List.nodup_cons] at nodup
      obtain ⟨key, value⟩ := first
      rcases List.mem_cons.mp member with rfl | later
      · simp
      · have other : (e.1 == key) = false := by
          rw [beq_eq_false_iff_ne]
          rintro rfl
          exact nodup.1 (List.mem_map.mpr ⟨e, later, rfl⟩)
        rw [List.lookup_cons, other]
        exact ih nodup.2 later

theorem entries_insert_of_mem {m : OrderedMap κ α} {key : κ} (present : key ∈ m.keys) (value : α)
    : (m.insert key value).entries
      = m.entries.map fun e => if e.1 = key then (e.1, value) else e := by
  simp only [insert, if_pos present, modify]

theorem entries_insert_of_not_mem {m : OrderedMap κ α} {key : κ} (absent : key ∉ m.keys)
    (value : α)
    : (m.insert key value).entries = m.entries ++ [(key, value)] := by
  simp only [insert, if_neg absent, insertIfNew, dif_neg absent]

theorem get?_modify_insertIfNew {m : OrderedMap κ α} {key : κ} (absent : key ∉ m.keys) (value : α)
    (f : α → α) (other : κ)
    : ((m.insertIfNew key value).modify key f).get? other
      = if other = key then some (f value) else m.get? other := by
  have missing : m.get? key = none := (get?_eq_none_iff m key).mpr absent
  rw [get?_modify, get?_insertIfNew, missing]
  split <;> rfl

/-- Setting a key to a function of what it finds changes the value at that key. -/
theorem insert_of_get? {m : OrderedMap κ α} {key : κ} {value : α} (found : m.get? key = some value)
    (f : α → α)
    : m.insert key (f value) = m.modify key f := by
  have present : key ∈ m.keys := (get?_isSome_iff m key).mp (by simp [found])
  apply ext
  rw [entries_insert_of_mem present, modify]
  apply List.map_congr_left
  intro e member
  split
  · next here =>
      have same := get?_of_mem member
      rw [here, found] at same
      rw [Option.some.inj same]
  · rfl

/-- Setting a key to what it finds changes nothing. -/
theorem insert_of_found {m : OrderedMap κ α} {key : κ} {value : α} (found : m.get? key = some value)
    : m.insert key value = m := by
  have same := insert_of_get? found id
  rw [id_eq] at same
  rw [same]
  apply ext
  simp [modify]

theorem mapValues_insert (f : α → β) (m : OrderedMap κ α) (key : κ) (value : α)
    : (m.insert key value).mapValues f = (m.mapValues f).insert key (f value) := by
  apply ext
  by_cases present : key ∈ m.keys
  · rw [entries_insert_of_mem (by simpa using present), entries_mapValues, entries_mapValues,
      entries_insert_of_mem present, List.map_map, List.map_map]
    apply List.map_congr_left
    intro e _
    by_cases here : e.1 = key <;> simp [here]
  · rw [entries_insert_of_not_mem (by simpa using present), entries_mapValues, entries_mapValues,
      entries_insert_of_not_mem present, List.map_append]
    rfl

theorem mapValues_foldl_insert (f : α → β) (entries : List (κ × α)) (m : OrderedMap κ α)
    : (entries.foldl (fun m e => m.insert e.1 e.2) m).mapValues f
      = (entries.map fun e => (e.1, f e.2)).foldl (fun m e => m.insert e.1 e.2)
          (m.mapValues f) := by
  induction entries generalizing m with
  | nil => rfl
  | cons e rest ih =>
      rw [List.foldl_cons, ih, mapValues_insert, List.map_cons, List.foldl_cons]

theorem mapValues_ofList (f : α → β) (entries : List (κ × α))
    : (ofList entries).mapValues f = ofList (entries.map fun e => (e.1, f e.2)) :=
  mapValues_foldl_insert f entries ∅

theorem entries_foldl_insert (entries : List (κ × α)) (m : OrderedMap κ α)
    (fresh : (m.keys ++ entries.map Prod.fst).Nodup)
    : (entries.foldl (fun m e => m.insert e.1 e.2) m).entries = m.entries ++ entries := by
  induction entries generalizing m with
  | nil => simp
  | cons e rest ih =>
      have absent : e.1 ∉ m.keys := by
        intro present
        exact (List.nodup_append.mp fresh).2.2 e.1 present e.1 (by simp) rfl
      have grown : (m.insert e.1 e.2).entries = m.entries ++ [e] :=
        entries_insert_of_not_mem absent e.2
      have keys : (m.insert e.1 e.2).keys = m.keys ++ [e.1] := by
        rw [keys_insert, if_neg absent]
      rw [List.foldl_cons, ih, grown, List.append_assoc, List.singleton_append]
      rw [keys, List.append_assoc]
      simpa using fresh

theorem entries_ofList (entries : List (κ × α)) (fresh : (entries.map Prod.fst).Nodup)
    : (ofList entries).entries = entries := by
  rw [ofList, entries_foldl_insert entries ∅ (by simpa [keys] using fresh)]
  simp

/-- Setting keys unless they are set keeps the first entry of every new key, behind all entries from
before. By induction along the entries for any map, since the first entry of a key hides the others.
-/
theorem entries_foldl_insertIfNew (entries : List (κ × α)) (m : OrderedMap κ α)
    : (entries.foldl (fun m e => m.insertIfNew e.1 e.2) m).entries
      = m.entries
        ++ (entries.filter fun e => e.1 ∉ m.keys).eraseDupsBy (fun e f => e.1 == f.1) := by
  induction entries generalizing m with
  | nil => simp
  | cons e rest ih =>
      rw [List.foldl_cons, ih, keys_insertIfNew]
      by_cases present : e.1 ∈ m.keys
      · have same : m.insertIfNew e.1 e.2 = m := dif_pos present
        rw [same, if_pos present, List.filter_cons_of_neg (by simpa using present)]
      · have grown : (m.insertIfNew e.1 e.2).entries = m.entries ++ [e] := by
          simp only [insertIfNew, dif_neg present]
        have hidden
            : (rest.filter fun f => f.1 ∉ m.keys ++ [e.1])
              = (rest.filter fun f => f.1 ∉ m.keys).filter fun f => decide ((f.1 == e.1) = false) := by
          rw [List.filter_filter]
          exact List.filter_congr fun f _ => by simp [and_comm]
        rw [grown, if_neg present, List.filter_cons_of_pos (by simpa using present),
          List.eraseDupsBy_cons, hidden, List.append_assoc, List.singleton_append]

end ShaderReflection.OrderedMap
