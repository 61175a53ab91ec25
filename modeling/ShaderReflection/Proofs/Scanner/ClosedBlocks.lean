import ShaderReflection.Proofs.Scanner.SectionOpening

/-! The closed blocks of a section taken together. If nothing is pending where one block is left and
the next one is entered, the section declares what the tokens inside its blocks declare one after
another in a single block.
-/

namespace ShaderReflection.Scanner

open Text

variable {cs : List Char} {name : Section} {i m n : Nat} {s : Scanner}

-----------------------------------------------------------------------------------------
-- Where closed blocks lie
-----------------------------------------------------------------------------------------

/-- The braces of the closed block of a section that is entered at a position. -/
def span? (cs : List Char) (name : Section) (i : Nat) : Option (Nat × Nat) :=
  if entered? cs i = some name then (closing? cs i).map (i, ·) else none

/-- The braces of the closed blocks of a section that are entered before a position. -/
def spansBefore (cs : List Char) (name : Section) (n : Nat) : List (Nat × Nat) :=
  (List.range n).filterMap (span? cs name)

/-- The braces of the closed blocks of a section, in their order. -/
def closedSpans (cs : List Char) (name : Section) : List (Nat × Nat) :=
  spansBefore cs name cs.length

/-- The tokens between braces. -/
def innerTokens (cs : List Char) (spans : List (Nat × Nat)) : List Token :=
  spans.flatMap fun span => Token.ofText (slice cs (span.1 + 1) span.2)

theorem spansBefore_succ (cs : List Char) (name : Section) (n : Nat)
    : spansBefore cs name (n + 1) = spansBefore cs name n ++ (span? cs name n).toList := by
  rw [spansBefore, List.range_succ, List.filterMap_append, spansBefore]
  cases found : span? cs name n <;> simp [found]

theorem spansBefore_mono (before : m ≤ n) : spansBefore cs name m <+: spansBefore cs name n := by
  induction n, before using Nat.le_induction with
  | base => exact List.prefix_rfl
  | succ n _ ih =>
      rw [spansBefore_succ]
      exact ih.trans (List.prefix_append _ _)

theorem spansBefore_of_no_entry (behind : i ≤ n)
    (noEntry : ∀ m, i ≤ m → m < n → entered? cs m ≠ some name)
    : spansBefore cs name n = spansBefore cs name i := by
  induction n, behind using Nat.le_induction with
  | base => rfl
  | succ n behind ih =>
      have none : span? cs name n = none := by
        rw [span?, if_neg (noEntry n behind (Nat.lt_succ_self n))]
      rw [spansBefore_succ, none, ih fun m after before => noEntry m after (by omega)]
      exact List.append_nil _

/-- A block behind others is not the last one before it. -/
theorem mem_dropLast_of_later {span other : Nat × Nat} (earlier : span ∈ spansBefore cs name i)
    (later : span? cs name i = some other) (inText : i < cs.length)
    : span ∈ (closedSpans cs name).dropLast := by
  obtain ⟨rest, whole⟩ : spansBefore cs name (i + 1) <+: closedSpans cs name :=
    spansBefore_mono inText
  rw [← whole, spansBefore_succ, later, Option.toList_some, List.append_assoc,
    List.dropLast_append_of_ne_nil (by simp)]
  exact List.mem_append_left _ earlier

-----------------------------------------------------------------------------------------
-- Blocks read one after another
-----------------------------------------------------------------------------------------

/-- The scan that has read tokens in a block that it has entered first of all. -/
def readInBlock (name : Section) (tokens : List Token) : Scanner :=
  (({} : Scanner).acceptAll name.openingTokens).acceptAll tokens

/-- The blocks of a section can be read as one: each is entered outside parameter lists, and each
but the last one leaves neither a parameter list nor a statement unfinished.
-/
structure Joinable (cs : List Char) (name : Section) : Prop where
  entered : ∀ span ∈ closedSpans cs name, (upTo cs (span.1 + 1)).openLists = 0
  left
    : ∀ span ∈ (closedSpans cs name).dropLast,
        (upTo cs span.2).openLists = 0 ∧ (upTo cs span.2).flushWord.statement = {}

/-- The closed blocks before a position, read one after another as one block, declare what the
section has declared there. What is then pending is what the last of these blocks leaves.
-/
structure Resumes (cs : List Char) (name : Section) (n : Nat) : Prop where
  directly : Directly name (readInBlock name (innerTokens cs (spansBefore cs name n)))
  declarations
    : (upTo cs n).declarations.getD name []
      = (readInBlock name
          (innerTokens cs (spansBefore cs name n))).finishStatement.declarations.getD name []
  pending
    : ∀ span, (spansBefore cs name n).getLast? = some span
        → SamePending (readInBlock name (innerTokens cs (spansBefore cs name n)))
            (upTo cs span.2).flushWord

theorem Resumes.start (cs : List Char) (name : Section) : Resumes cs name 0 := by
  obtain ⟨directly, settled, nothing⟩ := directly_opening name
  refine ⟨directly, ?_, fun span last => by cases last⟩
  change _ = (({} : Scanner).acceptAll name.openingTokens).finishStatement.declarations.getD name []
  rw [settled.finishStatement, nothing]
  rfl

/-- Nothing changes outside the blocks of the section. -/
theorem Resumes.skip (h : Resumes cs name i) (behind : i ≤ n)
    (noEntry : ∀ m, i ≤ m → m < n → entered? cs m ≠ some name)
    (elsewhere : ∀ m, i ≤ m → m < n → sectionAt? cs m ≠ some name)
    : Resumes cs name n := by
  have spans := spansBefore_of_no_entry behind noEntry
  refine ⟨spans ▸ h.directly, ?_, spans ▸ h.pending⟩
  rw [declarations_elsewhere behind elsewhere, spans]
  exact h.declarations

/-- Where another closed block of the section is entered, nothing is pending from the blocks before.
-/
theorem Resumes.settled (h : Resumes cs name i) (joinable : Joinable cs name) {other : Nat × Nat}
    (later : span? cs name i = some other) (inText : i < cs.length)
    : (readInBlock name (innerTokens cs (spansBefore cs name i))).Settled := by
  cases last : (spansBefore cs name i).getLast? with
  | none =>
      rw [List.getLast?_eq_none_iff.mp last]
      exact (directly_opening name).2.1
  | some span =>
      have pending := h.pending span last
      obtain ⟨lists, statement⟩ :=
        joinable.left span (mem_dropLast_of_later (List.mem_of_getLast? last) later inText)
      have coherent := (upTo_steady cs span.2).1.flushWord.coherent
      have closed : (upTo cs span.2).flushWord.openLists = 0 := by
        rw [flushWord_openLists, lists]
      exact ⟨pending.openLists.trans closed, pending.statement.trans statement,
        pending.parameter.trans (coherent.idle closed)⟩

theorem innerTokens_append (cs : List Char) (spans others : List (Nat × Nat))
    : innerTokens cs (spans ++ others) = innerTokens cs spans ++ innerTokens cs others :=
  List.flatMap_append

theorem readInBlock_append (name : Section) (tokens others : List Token)
    : readInBlock name (tokens ++ others) = (readInBlock name tokens).acceptAll others :=
  acceptAll_append _ tokens others

theorem closing?_ne_of_lt (closes : closing? cs i = some n) : ∀ m < n, closing? cs i ≠ some m := by
  intro m earlier other
  cases closes.symm.trans other
  exact Nat.lt_irrefl _ earlier

/-- A scan is inside a closed block up to the brace that closes it, and directly inside in front of
that brace.
-/
theorem inside_of_closing (entered : entered? cs i = some name) (closes : closing? cs i = some n)
    : ∃ block, Inside cs i n block ∧ block.name = name
        ∧ (upTo cs n).depth = block.outerDepth + 1 := by
  obtain ⟨⟨behind, brace, code, zero⟩, _⟩ := closing?_eq_some_iff.mp closes
  have inText : n < cs.length := (List.getElem?_eq_some_iff.mp brace).1
  obtain ⟨block, inside, named⟩ :=
    inside_of_entered entered behind (Nat.le_of_lt inText) (closing?_ne_of_lt closes)
  have weight := braceWeight_eq_neg_one_iff.mpr ⟨brace, code⟩
  have depth := inside.depth
  rw [braceCount_succ (Nat.le_of_lt behind), weight] at zero
  exact ⟨block, inside, named, by omega⟩

theorem spansBefore_of_closing (entered : entered? cs i = some name)
    (closes : closing? cs i = some n)
    : spansBefore cs name (n + 1) = spansBefore cs name i ++ [(i, n)] := by
  obtain ⟨block, inside, _⟩ := inside_of_closing entered closes
  have behind := inside.behind
  have here : span? cs name i = some (i, n) := by
    rw [span?, if_pos entered, closes, Option.map_some]
  have noEntry (m : Nat) (after : i + 1 ≤ m) (before : m < n + 1) : entered? cs m ≠ some name := by
    obtain ⟨around, place, _⟩ :=
      Option.map_eq_some_iff.mp (inside.active m after (Nat.le_of_lt_succ before))
    simp [entered?_eq_none_of_inside place]
  rw [spansBefore_of_no_entry (by omega) noEntry, spansBefore_succ, here, Option.toList_some]

/-- A closed block is read behind those before it, up to its closing brace, which ends its last
statement.
-/
theorem Resumes.through (h : Resumes cs name i) (joinable : Joinable cs name)
    (entered : entered? cs i = some name) (closes : closing? cs i = some n)
    : Resumes cs name (n + 1) := by
  obtain ⟨⟨behind, brace, code, _⟩, _⟩ := closing?_eq_some_iff.mp closes
  obtain ⟨block, inside, named, depth⟩ := inside_of_closing entered closes
  have inText : n < cs.length := (List.getElem?_eq_some_iff.mp brace).1
  have entryInText := lt_length_of_entered entered
  have here : span? cs name i = some (i, n) := by
    rw [span?, if_pos entered, closes, Option.map_some]
  have listed : (i, n) ∈ closedSpans cs name :=
    List.mem_filterMap.mpr ⟨i, List.mem_range.mpr entryInText, here⟩
  -- The block is read from the state in which the blocks before it were left.
  have settled := h.settled joinable here entryInText
  have elsewhere (m : Nat) (after : i ≤ m) (before : m < i + 1) : sectionAt? cs m ≠ some name := by
    rw [show m = i by omega, sectionAt?, (entered?_eq_some entered).1]
    simp
  have declared := h.declarations
  rw [← declarations_elsewhere (Nat.le_succ i) elsewhere, settled.finishStatement]
    at declared
  have read := inStep_of_entered entered behind (Nat.le_of_lt inText) (closing?_ne_of_lt closes)
    (by simp [brace]) (joinable.entered _ listed) h.directly settled
    (declared.trans (List.nil_append _).symm)
  have tokens : innerTokens cs (spansBefore cs name (n + 1))
      = innerTokens cs (spansBefore cs name i) ++ Token.ofText (slice cs (i + 1) n) := by
    rw [spansBefore_of_closing entered closes, innerTokens_append]
    simp [innerTokens]
  rw [← readInBlock_append, ← tokens] at read
  have place : (upTo cs n).flushWord.block = some block :=
    (upTo cs n).flushWord_place.block.trans inside.place
  have step := upTo_succ_of_mark brace rfl code
  refine ⟨read.directly ?_, ?_, ?_⟩
  · obtain ⟨around, found, _, relative⟩ := read.place
    cases found.symm.trans place
    rw [(upTo cs n).flushWord_place.depth, depth] at relative
    omega
  · have ended := (read.captured '\x7d').finishStatement.declarations
    rw [step]
    change (((upTo cs n).captured '\x7d').flushWord.closeBrace).declarations.getD name [] = _
    rw [closeBrace_declarations, flushWord_captured]
    exact ended
  · intro span last
    rw [spansBefore_of_closing entered closes, List.getLast?_append, List.getLast?_singleton] at last
    cases last
    exact read.pending.symm

/-- Blocks of other sections are passed over. -/
theorem Resumes.past (h : Resumes cs name i) {block : Block} (inside : Inside cs i n block)
    (other : block.name ≠ name) (behind : i ≤ m) (upTo : m ≤ n + 1)
    : Resumes cs name m := by
  have different : some block.name ≠ some name := fun same => other (Option.some.inj same)
  refine h.skip behind ?_ ?_
  · intro p after before
    rcases Nat.eq_or_lt_of_le after with rfl | later
    · rw [inside.entered]
      exact different
    · obtain ⟨around, place, _⟩ := Option.map_eq_some_iff.mp (inside.active p later (by omega))
      simp [entered?_eq_none_of_inside place]
  · intro p after before
    rcases Nat.eq_or_lt_of_le after with rfl | later
    · simp [sectionAt?, (entered?_eq_some inside.entered).1]
    · rw [inside.active p later (by omega)]
      exact different

/-- At every position outside all blocks, the section declares what its closed blocks before it
declare, read as one. By induction over the positions, where a block is passed over as a whole.
-/
theorem resumes_of_outside (joinable : Joinable cs name) (inText : n ≤ cs.length)
    (outside : (upTo cs n).block = none)
    : Resumes cs name n := by
  induction n using Nat.strongRecOn with
  | ind n ih =>
      cases n with
      | zero => exact .start cs name
      | succ n =>
          have found : cs[n]? = some cs[n] := List.getElem?_eq_getElem inText
          rcases outside_or_inside (Nat.le_of_lt inText) with before | ⟨i, block, inside⟩
          · rcases before.step found with ⟨_, entered⟩ | ⟨noEntry, _⟩
            · cases outside.symm.trans entered.place
            · refine (ih n (Nat.lt_succ_self n) (Nat.le_of_lt inText) before.place).skip
                (Nat.le_succ n) ?_ ?_
              · intro m after before
                rw [show m = n by omega, noEntry]
                simp
              · intro m after earlier
                rw [show m = n by omega, sectionAt?, before.place]
                simp
          · rcases inside.step found with ⟨_, still⟩ | ⟨closes, _⟩
            · cases outside.symm.trans still.place
            · have behind := inside.behind
              have start := ih i (by omega) (by omega) (entered?_eq_some inside.entered).1
              by_cases same : block.name = name
              · exact start.through joinable (same ▸ inside.entered) closes
              · exact start.past inside same (by omega) (Nat.le_refl _)

/-- A section that is not left open declares in the end what its closed blocks declare, read as one.
-/
theorem resumes_at_end (joinable : Joinable cs name)
    (ended : sectionAt? cs cs.length ≠ some name)
    : Resumes cs name cs.length := by
  rcases outside_or_inside (Nat.le_refl cs.length) with outside | ⟨i, block, inside⟩
  · exact resumes_of_outside joinable (Nat.le_refl _) outside.place
  · have behind := inside.behind
    have start := resumes_of_outside joinable (by omega) (entered?_eq_some inside.entered).1
    refine start.past inside ?_ (by omega) (Nat.le_succ _)
    rintro rfl
    exact ended (inside.active cs.length behind (Nat.le_refl _))

end ShaderReflection.Scanner
