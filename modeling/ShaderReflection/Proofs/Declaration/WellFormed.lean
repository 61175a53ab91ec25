import ShaderReflection.Declaration
import ShaderReflection.OrderedMap.Lemmas
import ShaderReflection.Proofs.Tokens.Words

/-! Well-formed keywords are read as well-formed declarations. -/

namespace ShaderReflection

open Text

/-- A keyword as a scan collects it: a word or `=`, with parameters that have words for names and
words or nothing for values.
-/
structure Keyword.WellFormed (k : Keyword) : Prop where
  word : k.word = "=" ∨ IsWord k.word
  parameters : ∀ p ∈ k.parameters.entries, IsWord p.1 ∧ (p.2 = "" ∨ IsWord p.2)

/-- A declaration as a scan stores it: qualified and typed, with parameters only for its own
qualifiers, none of them an empty list or without a name.
-/
structure Declaration.WellFormed (d : Declaration) : Prop where
  qualified : d.qualifiers ≠ []
  typed : d.type ≠ .untyped
  named : d.name = "" ∨ IsWord d.name
  owned : ∀ e ∈ d.parameters.entries, e.1 ∈ d.qualifiers
  given : ∀ e ∈ d.parameters.entries, e.2.isEmpty = false ∧ ∀ p ∈ e.2.entries, p.1 ≠ ""

theorem OrderedMap.mem_entries_insertIfNew {κ α : Type} [DecidableEq κ] {m : OrderedMap κ α}
    {key : κ} {value : α} {e : κ × α} (member : e ∈ (m.insertIfNew key value).entries)
    : e ∈ m.entries ∨ e = (key, value) := by
  unfold insertIfNew at member
  split at member
  · exact Or.inl member
  · simpa using member

namespace Statement

variable {s : Statement}

theorem push_wellFormed (h : ∀ k ∈ s.latestFirst, k.WellFormed) {word : String}
    (wellFormed : word = "=" ∨ IsWord word)
    : ∀ k ∈ (s.push word).latestFirst, k.WellFormed := by
  intro k member
  rcases List.mem_cons.mp member with rfl | old
  · exact ⟨wellFormed, fun p among => absurd among List.not_mem_nil⟩
  · exact h k old

theorem annotate_wellFormed (h : ∀ k ∈ s.latestFirst, k.WellFormed) {name value : String}
    (isWord : IsWord name) (wellFormed : value = "" ∨ IsWord value)
    : ∀ k ∈ (s.annotate name value).latestFirst, k.WellFormed := by
  intro k member
  unfold annotate at member
  split at member
  · exact h k member
  · next last earlier latest =>
      rw [latest] at h
      rcases List.mem_cons.mp member with rfl | old
      · have before := h last (by simp)
        refine ⟨before.word, ?_⟩
        intro p among
        rcases OrderedMap.mem_entries_insertIfNew among with old | rfl
        · exact before.parameters p old
        · exact ⟨isWord, wellFormed⟩
      · exact h k (by simp [old])

end Statement

namespace Declaration

/-- The type that a keyword names is a type, since the missing one has no keyword. -/
theorem ofKeyword?_ne_untyped {word : String} {type : DataType}
    (named : DataType.ofKeyword? word = some type)
    : type ≠ .untyped := by
  have member := List.mem_of_find?_eq_some named
  rintro rfl
  simp [DataType.declarable] at member

/-- The type that is taken out stands behind keywords that name no type, by induction along those.
-/
theorem takeType?_split {keywords others : List Keyword} {type : DataType}
    (taken : takeType? keywords = some (type, others))
    : ∃ before k behind,
        keywords = before ++ k :: behind
        ∧ others = before ++ behind
        ∧ (∀ earlier ∈ before, DataType.ofKeyword? earlier.word = none)
        ∧ DataType.ofKeyword? k.word = some type := by
  induction keywords generalizing others with
  | nil => cases taken
  | cons k rest ih =>
      rw [takeType?] at taken
      cases named : DataType.ofKeyword? k.word with
      | some found =>
          simp only [named, Option.some.injEq, Prod.mk.injEq] at taken
          obtain ⟨rfl, rfl⟩ := taken
          exact ⟨[], k, rest, rfl, rfl, by simp, named⟩
      | none =>
          simp only [named, Option.map_eq_some_iff, Prod.mk.injEq] at taken
          obtain ⟨⟨found, more⟩, takenLater, rfl, rfl⟩ := taken
          obtain ⟨before, typed, behind, rfl, rfl, untyped, isType⟩ := ih takenLater
          refine ⟨k :: before, typed, behind, rfl, rfl, ?_, isType⟩
          exact List.forall_mem_cons.mpr ⟨named, untyped⟩

theorem takeType?_eq_some {keywords others : List Keyword} {type : DataType}
    (taken : takeType? keywords = some (type, others))
    : type ≠ .untyped ∧ ∀ k ∈ others, k ∈ keywords := by
  obtain ⟨before, k, behind, rfl, rfl, _, isType⟩ := takeType?_split taken
  refine ⟨ofKeyword?_ne_untyped isType, fun other member => ?_⟩
  exact (List.Sublist.append_left (List.sublist_cons_self k behind) before).mem member

/-- A qualifier with a parameter list stands among keywords, and the list is not empty. -/
def GivenBy (keywords : List Keyword) (e : Qualifier × Parameters) : Prop :=
  ∃ k ∈ keywords,
    Qualifier.ofKeyword? k.word = some e.1 ∧ k.parameters.isEmpty = false ∧ e.2 = k.parameters

/-- Each parameter list of a declaration is given by a keyword, since every keyword adds at most
its own list to those collected before it.
-/
theorem mem_parametersOf (keywords : List Keyword)
    : ∀ e ∈ (parametersOf keywords).entries, GivenBy keywords e := by
  unfold parametersOf
  apply List.foldlRecOn (motive := fun found : OrderedMap Qualifier Parameters =>
    ∀ e ∈ found.entries, GivenBy keywords e)
  · intro e member
    exact absurd member List.not_mem_nil
  · intro found earlier k among e member
    split at member
    · next qualifier named =>
        split at member
        · exact earlier e member
        · next given =>
            rcases OrderedMap.mem_entries_insertIfNew member with old | rfl
            · exact earlier e old
            · exact ⟨k, among, named, by simpa using given, rfl⟩
    · exact earlier e member

theorem read?_wellFormed {keywords : List Keyword} {reading : Reading}
    (wellFormed : ∀ k ∈ keywords, k.WellFormed) (read : read? keywords = some reading)
    (qualified : reading.declaration.qualifiers ≠ [])
    : reading.declaration.WellFormed := by
  unfold read? at read
  cases taken : takeType? (beforeInitializer keywords) with
  | none => simp [taken] at read
  | some found =>
      obtain ⟨type, others⟩ := found
      simp only [taken, Option.some.injEq] at read
      subst read
      obtain ⟨typed, kept⟩ := takeType?_eq_some taken
      have word {k : Keyword} (member : k ∈ others) : IsWord k.word := by
        have before := kept k member
        have noEquals : k.word ≠ "=" := by
          simpa using List.all_eq_true.mp List.all_takeWhile k before
        exact (wellFormed k ((List.takeWhile_sublist _).mem before)).word.resolve_left noEquals
      refine ⟨qualified, typed, ?_, ?_, ?_⟩
      · cases names : (namesOf others).dropWhile (· = "") with
        | nil => exact Or.inl (by simp)
        | cons name more =>
            have member : name ∈ namesOf others :=
              (List.dropWhile_sublist _).mem (names ▸ List.mem_cons_self)
            obtain ⟨k, among, rfl⟩ := List.mem_map.mp member
            exact Or.inr (by simpa [names] using word (List.mem_filter.mp among).1)
      · intro e member
        obtain ⟨k, among, named, _, _⟩ := mem_parametersOf others e member
        exact List.mem_filterMap.mpr ⟨k, among, named⟩
      · intro e member
        obtain ⟨k, among, _, given, same⟩ := mem_parametersOf others e member
        refine ⟨same ▸ given, ?_⟩
        intro p parameter
        have origin := wellFormed k ((List.takeWhile_sublist _).mem (kept k among))
        exact (origin.parameters p (same ▸ parameter)).1.nonempty

end Declaration

end ShaderReflection
