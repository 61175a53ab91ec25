import ShaderReflection.Proofs.Scanner.Turns

/-! The blocks of sections in a text: where each is entered, which brace closes it, and what of the
text it captures. A scan is inside a block exactly from its opening brace up to the brace that
closes it, and between them the captured source is the text since the opening brace.
-/

namespace ShaderReflection

/-- A block of a section as a text holds it. -/
structure CapturedBlock where
  name : Section
  /-- The text inside the braces, as a source keeps it. A block that is never closed goes on to the
  end of the text. -/
  source : String
  /-- Whether the block is closed. -/
  closed : Bool
deriving DecidableEq, Repr

/-- The sources of the closed blocks of a section, in their order. -/
def CapturedBlock.closedSources (name : Section) (blocks : List CapturedBlock) : List String :=
  (blocks.filter fun b => b.closed && decide (b.name = name)).map CapturedBlock.source

namespace Scanner

open Text CapturedBlock

variable {cs : List Char} {i m n : Nat} {c : Char} {name : Section} {block : Block}

/-- The section of which the character at a position enters a block. -/
def entered? (cs : List Char) (i : Nat) : Option Section :=
  match (upTo cs i).block, (upTo cs (i + 1)).block with
  | none, some block => some block.name
  | _, _ => none

/-- The section around a position. -/
def sectionAt? (cs : List Char) (n : Nat) : Option Section :=
  (upTo cs n).block.map Block.name

/-- The block that the character at a position enters. -/
def blockFrom? (cs : List Char) (i : Nat) : Option CapturedBlock :=
  (entered? cs i).map fun name =>
    { name
      source := String.ofList (kept (slice cs (i + 1) ((closing? cs i).getD cs.length)))
      closed := (closing? cs i).isSome }

/-- The blocks that are entered before a position. -/
def blocksBefore (cs : List Char) (n : Nat) : List CapturedBlock :=
  (List.range n).filterMap (blockFrom? cs)

/-- The blocks of sections in a text, in their order. -/
def capturedBlocks (cs : List Char) : List CapturedBlock :=
  blocksBefore cs cs.length

theorem blocksBefore_succ (cs : List Char) (n : Nat)
    : blocksBefore cs (n + 1) = blocksBefore cs n ++ (blockFrom? cs n).toList := by
  rw [blocksBefore, List.range_succ, List.filterMap_append, blocksBefore]
  cases found : blockFrom? cs n <;> simp [found]

theorem closedSources_append (name : Section) (blocks others : List CapturedBlock)
    : closedSources name (blocks ++ others)
      = closedSources name blocks ++ closedSources name others := by
  simp [closedSources]

-----------------------------------------------------------------------------------------
-- Turns at the positions of a text
-----------------------------------------------------------------------------------------

/-- A scan skips exactly the comments, by induction over the positions. -/
theorem upTo_succ_inComment (inside : n < cs.length)
    : (upTo cs (n + 1)).inComment = Text.inComment cs n := by
  induction n with
  | zero =>
      rw [upTo_succ (List.getElem?_eq_getElem inside), advance_inComment]
      have start : (upTo cs 0).inComment = false := rfl
      rw [start, Text.inComment, startsComment, List.getElem?_eq_getElem inside]
      by_cases slash : cs[0] = '/' <;> simp [slash]
  | succ n ih =>
      rw [upTo_succ (List.getElem?_eq_getElem inside), advance_inComment, ih (by omega),
        Text.inComment, startsComment, List.getElem?_eq_getElem inside]
      rfl

/-- The character at a position moves a scan by its weight there. -/
theorem upTo_turn (found : cs[n]? = some c)
    : Turn (upTo cs n) (upTo cs (n + 1)) c (braceWeight cs n) := by
  have inside : n < cs.length := (List.getElem?_eq_some_iff.mp found).1
  have comment := upTo_succ_inComment inside
  rw [upTo_succ found, advance_inComment] at comment
  have weights
      : braceWeight cs n = if (upTo cs n).inComment then 0 else weight c := by
    rw [braceWeight, ← comment, found]
    by_cases lineBreak : c = '\n'
    · subst lineBreak
      cases (upTo cs n).inComment <;> rfl
    · cases (upTo cs n).inComment with
      | true => simp [lineBreak]
      | false =>
          by_cases slash : c = '/'
          · subst slash
            simp [weight]
          · simp [slash]
  rw [upTo_succ found, weights]
  exact advance_turn _ _ _

-----------------------------------------------------------------------------------------
-- Inside a block
-----------------------------------------------------------------------------------------

theorem blockFrom?_eq_none (outside : entered? cs n = none) : blockFrom? cs n = none := by
  rw [blockFrom?, outside, Option.map_none]

theorem entered?_eq_none_of_inside (place : (upTo cs n).block = some block)
    : entered? cs n = none := by
  rw [entered?, place]

/-- At position `n` a scan is inside a block that the brace at position `i` entered. -/
structure Inside (cs : List Char) (i n : Nat) (block : Block) : Prop where
  place : (upTo cs n).block = some block
  behind : i < n
  entered : entered? cs i = some block.name
  opening : braceWeight cs i = 1
  active : ∀ m, i < m → m ≤ n → sectionAt? cs m = some block.name
  unclosed : ∀ m, i < m → m ≤ n → 0 < braceCount cs i m
  depth : ((upTo cs n).depth : Int) = block.outerDepth + braceCount cs i n
  source : block.source.chars.toList = kept (slice cs (i + 1) n)
  /-- No other block was entered since. -/
  listed : blocksBefore cs n = blocksBefore cs (i + 1)
  /-- No other block was closed since. -/
  sources
    : ∀ name, (upTo cs n).sources.get? name
        = joined (closedSources name (blocksBefore cs i))

/-- What stands at position `n` outside all blocks: the sources are those of the blocks before. -/
structure Outside (cs : List Char) (n : Nat) : Prop where
  place : (upTo cs n).block = none
  sources
    : ∀ name, (upTo cs n).sources.get? name
        = joined (closedSources name (blocksBefore cs n))

/-- A scan stays inside a block as long as the count of braces is positive. -/
theorem Inside.next (h : Inside cs i n block) (found : cs[n]? = some c)
    (place : (upTo cs (n + 1)).block = (upTo cs n).block.map (Block.capture · c))
    (depth : ((upTo cs (n + 1)).depth : Int) = (upTo cs n).depth + braceWeight cs n)
    (unclosed : 0 < braceCount cs i (n + 1))
    (sources : (upTo cs (n + 1)).sources = (upTo cs n).sources)
    : Inside cs i (n + 1) (block.capture c) := by
  obtain ⟨sameName, sameDepth⟩ := Block.capture_place block c
  have behind := h.behind
  rw [h.place, Option.map_some] at place
  refine ⟨place, by omega, sameName ▸ h.entered, h.opening, ?_, ?_, ?_, ?_, ?_, ?_⟩
  · intro m after upTo
    rcases Nat.lt_or_eq_of_le upTo with earlier | rfl
    · exact sameName ▸ h.active m after (by omega)
    · rw [sectionAt?, place, Option.map_some]
  · intro m after upTo
    rcases Nat.lt_or_eq_of_le upTo with earlier | rfl
    · exact h.unclosed m after (by omega)
    · exact unclosed
  · rw [depth, h.depth, sameDepth, braceCount_succ (by omega)]
    omega
  · rw [Block.capture_source, h.source, kept_slice_succ (by omega) found]
  · rw [blocksBefore_succ, blockFrom?_eq_none (entered?_eq_none_of_inside h.place), h.listed]
    simp
  · rw [sources]
    exact h.sources

/-- The first closing brace at which the count is zero closes the block. -/
theorem Inside.closing (h : Inside cs i n block) (closes : braceWeight cs n = -1)
    (zero : braceCount cs i (n + 1) = 0)
    : closing? cs i = some n := by
  obtain ⟨brace, code⟩ := braceWeight_eq_neg_one_iff.mp closes
  refine closing?_eq_some_iff.mpr ⟨⟨h.behind, brace, code, zero⟩, ?_⟩
  rintro m earlier ⟨after, _, _, balanced⟩
  have positive := h.unclosed (m + 1) (by omega) (by omega)
  omega

/-- The source of a block joins those of the blocks before it when the block is left. -/
theorem Inside.leave (h : Inside cs i n block) (found : closing? cs i = some n)
    (outside : (upTo cs (n + 1)).block = none)
    (sources
      : ∀ name, (upTo cs (n + 1)).sources.get? name
          = if name = block.name then
              merge ((upTo cs n).sources.get? name) (some block.source.text)
            else (upTo cs n).sources.get? name)
    : Outside cs (n + 1) := by
  refine ⟨outside, ?_⟩
  intro name
  have captured
      : blockFrom? cs i = some { name := block.name, source := block.source.text, closed := true } := by
    simp only [blockFrom?, h.entered, found, Option.map_some, Option.getD_some, Option.isSome_some,
      Buffer.text, h.source]
  have noOther : blocksBefore cs (n + 1)
      = blocksBefore cs i
        ++ [{ name := block.name, source := block.source.text, closed := true }] := by
    rw [blocksBefore_succ, blockFrom?_eq_none (entered?_eq_none_of_inside h.place), h.listed,
      blocksBefore_succ, captured]
    simp
  rw [sources name, noOther, closedSources_append, joined_append, h.sources name]
  by_cases same : name = block.name
  · simp [same, closedSources, joined, String.intercalate_singleton]
  · have other : ¬block.name = name := fun equal => same equal.symm
    rw [if_neg same]
    simp only [closedSources, other, List.filter_cons, decide_false, Bool.and_false,
      Bool.false_eq_true, if_false, List.filter_nil, List.map_nil]
    cases joined _ <;> rfl

/-- Inside a block the next character leads on inside it, or it closes the block and leads outside.
By cases on the turn: a block cannot be entered there, and no brace can be ignored.
-/
theorem Inside.step (h : Inside cs i n block) (found : cs[n]? = some c)
    : (∃ later, Inside cs i (n + 1) later) ∨ closing? cs i = some n ∧ Outside cs (n + 1) := by
  have behind := h.behind
  have positive := h.unclosed n behind (Nat.le_refl n)
  have depth := h.depth
  have count : braceCount cs i (n + 1) = braceCount cs i n + braceWeight cs n :=
    braceCount_succ (Nat.le_of_lt behind)
  have turn := upTo_turn found
  generalize weight : braceWeight cs n = w at turn
  cases turn with
  | stays place same sources =>
      exact Or.inl ⟨_, h.next found place (by omega) (by omega) sources⟩
  | deepens place deeper sources =>
      exact Or.inl ⟨_, h.next found place (by omega) (by omega) sources⟩
  | enters name outside _ _ _ => cases outside.symm.trans h.place
  | ignored _ lowest _ _ => omega
  | rises place higher inner sources =>
      have different := inner block h.place
      exact Or.inl ⟨_, h.next found place (by omega) (by omega) sources⟩
  | leaves around inside outside higher outer sources =>
      cases inside.symm.trans h.place
      have closes := h.closing weight (by omega)
      exact Or.inr ⟨closes, h.leave closes outside sources⟩

/-- Outside all blocks the next character enters a block, of which nothing is captured yet, or it
leads on outside.
-/
theorem Outside.step (h : Outside cs n) (found : cs[n]? = some c)
    : (∃ block, Inside cs n (n + 1) block) ∨ entered? cs n = none ∧ Outside cs (n + 1) := by
  have turn := upTo_turn found
  generalize weight : braceWeight cs n = w at turn
  have remains (place : (upTo cs (n + 1)).block = (upTo cs n).block.map (Block.capture · c))
      (sources : (upTo cs (n + 1)).sources = (upTo cs n).sources)
      : entered? cs n = none ∧ Outside cs (n + 1) := by
    rw [h.place, Option.map_none] at place
    have noEntry : entered? cs n = none := by
      rw [entered?, h.place, place]
    refine ⟨noEntry, place, ?_⟩
    rw [sources, blocksBefore_succ, blockFrom?_eq_none noEntry, Option.toList_none, List.append_nil]
    exact h.sources
  cases turn with
  | stays place _ sources => exact Or.inr (remains place sources)
  | deepens place _ sources => exact Or.inr (remains place sources)
  | enters name _ place depth sources =>
      have entry : entered? cs n = some name := by
        rw [entered?, h.place, place]
      have count : braceCount cs n (n + 1) = 1 := by
        rw [braceCount_succ (Nat.le_refl n), braceCount_self, weight]
        rfl
      have only {m : Nat} (after : n < m) (upTo : m ≤ n + 1) : m = n + 1 := by omega
      refine Or.inl ⟨_, place, by omega, entry, weight, ?_, ?_, ?_, ?_, rfl, ?_⟩
      · intro m after upTo
        rw [only after upTo, sectionAt?, place, Option.map_some]
      · intro m after upTo
        rw [only after upTo]
        omega
      · rw [depth, count]
        rfl
      · rw [slice_self]
        rfl
      · rw [sources]
        exact h.sources
  | ignored place _ _ sources => exact Or.inr (remains place sources)
  | rises place _ _ sources => exact Or.inr (remains place sources)
  | leaves around inside _ _ _ _ => cases h.place.symm.trans inside

/-- At every position a scan is outside all blocks or inside one, by induction over the positions.
-/
theorem outside_or_inside (inText : n ≤ cs.length)
    : Outside cs n ∨ ∃ i block, Inside cs i n block := by
  induction n with
  | zero => exact Or.inl ⟨rfl, fun _ => rfl⟩
  | succ n ih =>
      have found : cs[n]? = some cs[n] := List.getElem?_eq_getElem inText
      rcases ih (by omega) with outside | ⟨i, block, inside⟩
      · rcases outside.step found with ⟨block, inside⟩ | ⟨_, still⟩
        · exact Or.inr ⟨n, block, inside⟩
        · exact Or.inl still
      · rcases inside.step found with ⟨later, still⟩ | ⟨_, left⟩
        · exact Or.inr ⟨i, later, still⟩
        · exact Or.inl left

theorem inside_of_block (inText : n ≤ cs.length) (place : (upTo cs n).block = some block)
    : ∃ i, Inside cs i n block := by
  rcases outside_or_inside inText with outside | ⟨i, around, inside⟩
  · cases outside.place.symm.trans place
  · cases inside.place.symm.trans place
    exact ⟨i, inside⟩

-----------------------------------------------------------------------------------------
-- From the opening brace to the closing one
-----------------------------------------------------------------------------------------

theorem entered?_eq_some (entered : entered? cs i = some name)
    : (upTo cs i).block = none ∧ sectionAt? cs (i + 1) = some name := by
  unfold entered? at entered
  split at entered
  · next outside inside =>
      rw [sectionAt?, inside]
      exact ⟨outside, entered⟩
  · cases entered

/-- The text goes on where a block is entered. -/
theorem lt_length_of_entered (entered : entered? cs i = some name) : i < cs.length := by
  obtain ⟨outside, inside⟩ := entered?_eq_some entered
  by_contra past
  have none : cs[i]? = none := List.getElem?_eq_none_iff.mpr (by omega)
  rw [sectionAt?, upTo, none, outside] at inside
  cases inside

/-- From its entry on a scan is inside a block until the brace that closes it, by induction over the
positions behind the entry.
-/
theorem inside_of_entered (entered : entered? cs i = some name) (behind : i < n)
    (inText : n ≤ cs.length) (unclosed : ∀ m < n, closing? cs i ≠ some m)
    : ∃ block, Inside cs i n block ∧ block.name = name := by
  obtain ⟨outsideThere, _⟩ := entered?_eq_some entered
  have named {block : Block} (inside : Inside cs i n block) : block.name = name :=
    Option.some.inj (inside.entered.symm.trans entered)
  suffices reached : ∃ block, Inside cs i n block by
    obtain ⟨block, inside⟩ := reached
    exact ⟨block, inside, named inside⟩
  clear named
  induction n with
  | zero => omega
  | succ n ih =>
      have found : cs[n]? = some cs[n] := List.getElem?_eq_getElem inText
      rcases Nat.lt_or_eq_of_le (Nat.le_of_lt_succ behind) with later | rfl
      · obtain ⟨block, inside⟩ := ih later (by omega) fun m earlier => unclosed m (by omega)
        rcases inside.step found with still | ⟨closes, _⟩
        · exact still
        · exact absurd closes (unclosed n (by omega))
      · rcases outside_or_inside (Nat.le_of_succ_le inText) with outside | ⟨_, block, inside⟩
        · rcases outside.step found with inside | ⟨noEntry, _⟩
          · exact inside
          · cases noEntry.symm.trans entered
        · cases inside.place.symm.trans outsideThere

/-- A block is left exactly at the brace that closes it. -/
theorem closing?_iff_left (entered : entered? cs i = some name) (inText : n < cs.length)
    : closing? cs i = some n
      ↔ i < n
        ∧ (∀ m, i < m → m ≤ n → sectionAt? cs m = some name)
        ∧ (upTo cs (n + 1)).block = none := by
  have forward {n : Nat} (inText : n < cs.length) (closes : closing? cs i = some n)
      : i < n
        ∧ (∀ m, i < m → m ≤ n → sectionAt? cs m = some name)
        ∧ (upTo cs (n + 1)).block = none := by
    obtain ⟨⟨behind, _, _, zero⟩, _⟩ := closing?_eq_some_iff.mp closes
    have unclosed : ∀ m < n, closing? cs i ≠ some m := by
      intro m earlier other
      have same := Option.some.inj (closes.symm.trans other)
      omega
    obtain ⟨block, inside, rfl⟩ := inside_of_entered entered behind (by omega) unclosed
    refine ⟨behind, inside.active, ?_⟩
    rcases inside.step (List.getElem?_eq_getElem inText) with ⟨later, still⟩ | ⟨_, left⟩
    · have positive := still.unclosed (n + 1) (by omega) (Nat.le_refl _)
      omega
    · exact left.place
  refine ⟨forward inText, ?_⟩
  rintro ⟨behind, active, left⟩
  by_contra other
  have unclosed : ∀ m < n + 1, closing? cs i ≠ some m := by
    intro m earlier closes
    rcases Nat.lt_or_eq_of_le (Nat.le_of_lt_succ earlier) with before | rfl
    · obtain ⟨_, _, outside⟩ := forward (by omega) closes
      have inside := active (m + 1) (by omega) (by omega)
      rw [sectionAt?, outside] at inside
      cases inside
    · exact other closes
  obtain ⟨block, inside, _⟩ := inside_of_entered entered (by omega) (by omega) unclosed
  cases left.symm.trans inside.place

-----------------------------------------------------------------------------------------
-- The sources of a text
-----------------------------------------------------------------------------------------

theorem finish_sources (s : Scanner) : s.finish.sources = s.sources :=
  s.flushWord_place.sources

/-- A block that is still open at the end is closed nowhere. -/
theorem Inside.closing?_eq_none (h : Inside cs i cs.length block) : closing? cs i = none := by
  refine closing?_eq_none_iff.mpr ?_
  rintro m ⟨behind, brace, _, zero⟩
  have inText : m < cs.length := (List.getElem?_eq_some_iff.mp brace).1
  have positive := h.unclosed (m + 1) (by omega) (by omega)
  omega

/-- The sources of a text are those of its closed blocks. -/
theorem sources_ofText (text : String) (name : Section)
    : (ofText text).sources.get? name
      = joined (closedSources name (capturedBlocks text.toList)) := by
  rw [ofText, finish_sources, capturedBlocks]
  rcases outside_or_inside (Nat.le_refl text.toList.length) with outside | ⟨i, block, inside⟩
  · exact outside.sources name
  · have none : closedSources name (blockFrom? text.toList i).toList = [] := by
      simp [closedSources, blockFrom?, inside.entered, inside.closing?_eq_none]
    rw [inside.sources, inside.listed, blocksBefore_succ, closedSources_append, none,
      List.append_nil]

/-- Sections are captured exactly. Wherever a scan is inside a block, that block was entered by an
opening brace, and the captured source is the text since that brace. The block is left at the brace
that closes it and nowhere else. The source of a section is made of the texts of its closed blocks.
-/
theorem sections_captured_exactly (text : String)
    : let cs := text.toList
      ({} : Scanner).scan {} text = .ok (upTo cs cs.length).finish
      ∧ (∀ n block, n ≤ cs.length → (upTo cs n).block = some block
          → ∃ i, i < n
              ∧ cs[i]? = some '{'
              ∧ Text.inComment cs i = false
              ∧ entered? cs i = some block.name
              ∧ (∀ m, i < m → m ≤ n → sectionAt? cs m = some block.name)
              ∧ block.source.text = String.ofList (kept (slice cs (i + 1) n)))
      ∧ (∀ i n name, n < cs.length → entered? cs i = some name
          → (closing? cs i = some n
              ↔ i < n
                ∧ (∀ m, i < m → m ≤ n → sectionAt? cs m = some name)
                ∧ (upTo cs (n + 1)).block = none))
      ∧ ∀ name, (upTo cs cs.length).finish.sources.get? name
          = joined (closedSources name (capturedBlocks cs)) := by
  intro cs
  refine ⟨scan_unlimited text, ?_, ?_, sources_ofText text⟩
  · intro n block inText place
    obtain ⟨i, inside⟩ := inside_of_block inText place
    obtain ⟨brace, code⟩ := braceWeight_eq_one_iff.mp inside.opening
    refine ⟨i, inside.behind, brace, code, inside.entered, inside.active, ?_⟩
    rw [Buffer.text, inside.source]
  · intro i n name inText entered
    exact closing?_iff_left entered inText

-- Braces in comments and those of inner scopes close no block, whatever parameter list is open.
example
    : capturedBlocks "\x7dvertex\x7b(a\t// \x7d\n\x7bb\x7d)\x7d fragment\x7b".toList
      = [{ name := .vertex, source := "(a// \x7d\x7bb\x7d)", closed := true },
          { name := .fragment, source := "", closed := false }] := by
  decide +kernel

end Scanner

end ShaderReflection
