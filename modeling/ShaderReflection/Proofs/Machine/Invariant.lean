import ShaderReflection.Proofs.Machine.Session
import ShaderReflection.Proofs.Session.Resting

/-! What holds between the registers of a session after any requests, those included that a limit
stopped.
-/

namespace ShaderReflection

namespace Machine

/-- A limit admits no further character of the pending word, or none of the source being captured.
-/
def Full (limits : Limits) (m : Machine) : Prop :=
  (m.word.wordOverflow? limits.word).isSome
  ∨ m.place ≠ none ∧ (m.captured.sourceOverflow? limits.source).isSome

/-- The invariant of the registers between requests. -/
structure Invariant (limits : Limits) (m : Machine) : Prop where
  /-- Statements are read at the bottom. -/
  bottom : m.modes.head? = some .statement
  /-- Only parameter lists are opened above. -/
  above : ∀ mode ∈ m.modes.tail, mode = .parameter
  depth : 0 ≤ m.depth
  /-- A current section was entered at a lower depth, and has declarations. -/
  inside
    : m.place ≠ none
        → 0 ≤ m.startDepth ∧ m.startDepth < m.depth ∧ m.place ∈ m.declarations.keys
  outside : m.place = none → m.startDepth = -1 ∧ m.captured = {}
  /-- No parameter is pending while a statement is read. -/
  idle
    : m.mode? = some .statement → m.parameter = { name := "", value := "", inValue := false }
  /-- A section is closed only after it was entered, and what is outside all sections is neither. -/
  closed : ∀ place ∈ m.sources.keys, place ∈ m.declarations.keys
  proper : none ∉ m.declarations.keys ∧ none ∉ m.sources.keys
  declared
    : ∀ e ∈ m.declarations.entries, ∀ d ∈ e.2,
        d.qualifiers ≠ []
        ∧ d.type ≠ .untyped
        ∧ ∀ given ∈ d.parameters.entries,
            given.1 ∈ d.qualifiers
            ∧ given.2.isEmpty = false
            ∧ ∀ p ∈ given.2.entries, p.1 ≠ ""
  /-- No mark, separator or comment is in the pending word, and none in the words of the pending
  statement and the pending parameter. -/
  wordlike : Text.Wordlike m.word.chars.toList
  statement : ∀ k ∈ m.statement.keywords, k.WellFormed
  parameter : m.parameter.WellFormed
  /-- A word is pending only where a limit admits no further character. -/
  full : m.word.isEmpty = false → m.Full limits
  /-- Both buffers keep to their limits. -/
  wordBound : ∀ n, limits.word = some n → (m.word.size : Int) ≤ max n 0
  sourceBound : ∀ n, limits.source = some n → (m.captured.size : Int) ≤ max n 0
  captured : ∀ c ∈ m.captured.chars.toList, Buffer.isLeftOut c = false

end Machine

namespace Scanner

variable {limits : Limits} {s : Scanner}

/-- What is captured is the source of a block, or nothing. -/
theorem machine_captured_cases (s : Scanner)
    : s.machine.captured = {}
      ∨ ∃ block, s.block = some block ∧ s.machine.captured = block.source := by
  rcases Option.eq_none_or_eq_some s.block with outside | ⟨block, inside⟩
  · left
    simp only [machine, outside, Option.map_none, Option.getD_none]
  · exact Or.inr ⟨block, inside, machine_captured inside⟩

theorem Full.machine (full : s.Full limits) : s.machine.Full limits := by
  rcases full with word | ⟨block, inside, source⟩
  · exact Or.inl word
  · right
    rw [machine_place inside, machine_captured inside]
    exact ⟨Option.some_ne_none _, source⟩

/-- The registers of a resting scan satisfy the invariant. -/
theorem Resting.machine (h : s.Resting limits) : s.machine.Invariant limits where
  bottom := rfl
  above := fun mode member => List.eq_of_mem_replicate member
  depth := Int.natCast_nonneg s.depth
  inside := by
    intro current
    obtain ⟨block, inside⟩ := Option.ne_none_iff_exists'.mp (s.machine_outside.not.mp current)
    have nested := h.nested block inside
    have entered := h.coherent.entered block inside
    rw [machine_place inside, machine_startDepth inside, machine_depth]
    refine ⟨Int.natCast_nonneg _, Int.ofNat_lt.mpr nested, ?_⟩
    exact (OrderedMap.mem_keys_mapKeys (Option.some_injective Section)).mpr entered
  outside := by
    intro current
    have outside : s.block = none := s.machine_outside.mp current
    simp only [Scanner.machine, outside]
    exact ⟨rfl, rfl⟩
  idle := fun normal => h.coherent.idle (s.machine_inStatement.mp normal)
  closed := by
    intro place member
    simp only [Scanner.machine, OrderedMap.keys_mapKeys, List.mem_map] at member ⊢
    obtain ⟨name, closed, rfl⟩ := member
    exact ⟨name, h.coherent.closed name closed, rfl⟩
  proper := by simp [Scanner.machine]
  declared := by
    intro e member d among
    simp only [Scanner.machine, OrderedMap.entries_mapKeys, List.mem_map] at member
    obtain ⟨entry, entered, rfl⟩ := member
    have wellFormed := h.coherent.declared entry entered d among
    exact ⟨wellFormed.qualified, wellFormed.typed,
      fun given own => ⟨wellFormed.owned given own, wellFormed.given given own⟩⟩
  wordlike := h.wordlike
  statement := fun k member => h.coherent.statement k (List.mem_reverse.mp member)
  parameter := h.coherent.parameter
  full := fun pending => (h.full pending).machine
  wordBound := h.bounded.word
  sourceBound := by
    intro n limited
    rcases s.machine_captured_cases with nothing | ⟨block, inside, same⟩
    · rw [nothing]
      exact Int.le_max_right n 0
    · rw [same]
      exact h.bounded.source block inside n limited
  captured := by
    rcases s.machine_captured_cases with nothing | ⟨block, inside, same⟩
    · simp [nothing]
    · rw [same]
      exact h.bounded.captured block inside

end Scanner

/-- After any requests, stopped ones included, the registers of a session are those of the session
that runs, and they satisfy the invariant.
-/
theorem MachineSession.afterAll_invariant (limits : Limits) (operations : List Operation)
    : (MachineSession.afterAll limits operations).machine
        = (Session.afterAll limits operations).scanner.machine
      ∧ (MachineSession.afterAll limits operations).machine.Invariant limits := by
  have same := congrArg machine (Session.onMachine_afterAll limits operations)
  rw [← same]
  exact ⟨rfl, (Session.afterAll_resting limits operations).machine⟩

end ShaderReflection
