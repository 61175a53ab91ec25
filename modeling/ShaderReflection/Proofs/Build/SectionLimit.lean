import ShaderReflection.Proofs.Build.Outcome
import ShaderReflection.Proofs.Scanner.SectionBlocks

/-! Which limits on the sources of sections a text exceeds. A block counts with its closing brace,
which is captured before it is taken back.
-/

namespace ShaderReflection

open Text

theorem Sections.failureCode_lt (sections : Sections) : sections.failureCode < 5 := by
  unfold failureCode
  split
  · omega
  · split
    · omega
    · split
      · omega
      · split <;> omega

/-- Only an overflow has the number five. -/
theorem code_build_eq_five_iff (limits : Limits) (text : String)
    : (build limits text).code = 5
      ↔ ∃ stopped, ({} : Scanner).scan limits text = .error stopped := by
  cases scanned : ({} : Scanner).scan limits text with
  | error stopped =>
      rw [build, scanned]
      exact ⟨fun _ => ⟨stopped, rfl⟩, fun _ => rfl⟩
  | ok s =>
      have smaller := s.sections.failureCode_lt
      rw [build_of_scan scanned, s.code_result]
      constructor
      · intro equal
        omega
      · rintro ⟨stopped, failed⟩
        cases failed

namespace Scanner

variable {cs : List Char} {i n limit : Nat} {c : Char} {name : Section} {block : Block}

theorem captureOverflow?_ne_none_iff {s : Scanner}
    : s.captureOverflow? (some (limit : Int)) c ≠ none
      ↔ Buffer.isLeftOut c = false
        ∧ ∃ block, s.block = some block ∧ limit ≤ block.source.chars.toList.length := by
  unfold captureOverflow?
  cases s.block with
  | none => simp
  | some block =>
      cases Buffer.isLeftOut c with
      | true => simp
      | false => simp [Buffer.sourceOverflow?, Buffer.size]

/-- The position behind the last character that a block captures, its closing brace included. -/
def captureEnd (cs : List Char) (i : Nat) : Nat :=
  match closing? cs i with
  | some n => n + 1
  | none => cs.length

/-- The length of what a block captures: its source, and its closing brace if it has one. -/
theorem length_captured (entered : entered? cs i = some name)
    : ∃ b, blockFrom? cs i = some b
        ∧ (kept (slice cs (i + 1) (captureEnd cs i))).length
          = b.source.length + if b.closed then 1 else 0 := by
  rw [blockFrom?, entered]
  refine ⟨_, rfl, ?_⟩
  cases closes : closing? cs i with
  | none => simp [captureEnd, closes]
  | some n =>
      obtain ⟨⟨behind, brace, _, _⟩, _⟩ := closing?_eq_some_iff.mp closes
      have copied : Buffer.isLeftOut '}' = false := rfl
      simp [captureEnd, closes, kept_slice_succ (Nat.succ_le_of_lt behind) brace, copied]

/-- Inside a block its end is not reached. -/
theorem Inside.lt_captureEnd (h : Inside cs i n block) (inText : n < cs.length)
    : n < captureEnd cs i := by
  unfold captureEnd
  split
  · next last closes =>
      obtain ⟨⟨behind, _, _, zero⟩, _⟩ := closing?_eq_some_iff.mp closes
      by_contra past
      have positive := h.unclosed (last + 1) (by omega) (by omega)
      omega
  · exact inText

theorem captureEnd_le_length (cs : List Char) (i : Nat) : captureEnd cs i ≤ cs.length := by
  unfold captureEnd
  split
  · next last closes =>
      have brace := (closing?_eq_some_iff.mp closes).1.2.1
      exact (List.getElem?_eq_some_iff.mp brace).1
  · exact Nat.le_refl _

theorem lt_captureEnd_of_entered (entered : entered? cs i = some name) : i < captureEnd cs i := by
  unfold captureEnd
  split
  · next last closes =>
      have behind := (closing?_eq_some_iff.mp closes).1.1
      omega
  · exact lt_length_of_entered entered

/-- Up to its end a scan is inside a block. -/
theorem inside_of_lt_captureEnd (entered : entered? cs i = some name) (behind : i < n)
    (within : n < captureEnd cs i)
    : ∃ block, Inside cs i n block := by
  have inText := captureEnd_le_length cs i
  have unclosed : ∀ m < n, closing? cs i ≠ some m := by
    intro m earlier closes
    simp only [captureEnd, closes] at within
    omega
  obtain ⟨block, inside, _⟩ := inside_of_entered entered behind (by omega) unclosed
  exact ⟨block, inside⟩

/-- A character is refused somewhere exactly if a block captures more than the limit. -/
theorem exists_refused_iff
    : (∃ n c, cs[n]? = some c ∧ (upTo cs n).captureOverflow? (some (limit : Int)) c ≠ none)
      ↔ ∃ b ∈ capturedBlocks cs, limit < b.source.length + if b.closed then 1 else 0 := by
  constructor
  · rintro ⟨n, c, found, refused⟩
    obtain ⟨keeps, block, place, full⟩ := captureOverflow?_ne_none_iff.mp refused
    have inText : n < cs.length := (List.getElem?_eq_some_iff.mp found).1
    obtain ⟨i, inside⟩ := inside_of_block (Nat.le_of_lt inText) place
    obtain ⟨b, listed, length⟩ := length_captured inside.entered
    refine ⟨b, List.mem_filterMap.mpr ⟨i, ?_, listed⟩, ?_⟩
    · rw [List.mem_range]
      exact Nat.lt_trans inside.behind inText
    · have goesOn : (kept (slice cs (i + 1) (n + 1))).length
          = block.source.chars.toList.length + 1 := by
        rw [kept_slice_succ inside.behind found, keeps, inside.source]
        simp
      have bound : (kept (slice cs (i + 1) (n + 1))).length
          ≤ (kept (slice cs (i + 1) (captureEnd cs i))).length :=
        kept_slice_length_mono (i + 1) (inside.lt_captureEnd inText)
      omega
  · rintro ⟨b, member, long⟩
    obtain ⟨i, _, listed⟩ := List.mem_filterMap.mp member
    obtain ⟨name, entered, _⟩ := Option.map_eq_some_iff.mp listed
    obtain ⟨same, listedToo, length⟩ := length_captured entered
    cases listed.symm.trans listedToo
    rw [← length] at long
    obtain ⟨n, c, behind, within, found, keeps, full⟩ :=
      exists_kept_behind (lt_captureEnd_of_entered entered) (captureEnd_le_length cs i) long
    obtain ⟨block, inside⟩ := inside_of_lt_captureEnd entered behind within
    rw [← inside.source] at full
    exact ⟨n, c, found, captureOverflow?_ne_none_iff.mpr ⟨keeps, block, inside.place, full⟩⟩

/-- The limit on sources is exceeded exactly if some block is longer than it, a closing brace
included. -/
theorem code_build_limited_iff (text : String) (limit : Nat)
    : (build { source := some limit } text).code = 5
      ↔ ∃ b ∈ capturedBlocks text.toList,
          limit < b.source.length + if b.closed then 1 else 0 := by
  rw [code_build_eq_five_iff, ← exists_refused_iff]
  rcases @scan_cases { source := some (limit : Int) } rfl text with
    ⟨scanned, admitted⟩ | ⟨stops, refused⟩
  · rw [scanned]
    constructor
    · rintro ⟨stopped, failed⟩
      cases failed
    · rintro ⟨n, c, found, refused⟩
      exact absurd (admitted n c found) refused
  · exact ⟨fun _ => refused, fun _ => stops⟩

/-- A limit on sources stops a build exactly if some block is longer than the limit, where a closed
block counts one character more than its source. So a limit stops a build exactly if some source is
longer, unless a closed block has a source of just that length.
-/
theorem section_limit_counts_closing_brace (text : String) (limit : Nat)
    : let blocks := capturedBlocks text.toList
      let code := (build { source := some (limit : Int) } text).code
      (code = 5 ↔ ∃ b ∈ blocks, limit < b.source.length + if b.closed then 1 else 0)
      ∧ ((∀ b ∈ blocks, b.closed = true → b.source.length ≠ limit)
          → (code = 5 ↔ ∃ b ∈ blocks, limit < b.source.length)) := by
  intro blocks code
  refine ⟨code_build_limited_iff text limit, ?_⟩
  intro different
  refine (code_build_limited_iff text limit).trans ?_
  constructor
  · rintro ⟨b, member, long⟩
    refine ⟨b, member, ?_⟩
    cases closed : b.closed with
    | true =>
        have other := different b member closed
        simp only [closed, if_true] at long
        omega
    | false => simpa [closed] using long
  · rintro ⟨b, member, long⟩
    exact ⟨b, member, by omega⟩

/-- Witness: a block left open that is the longest one. A limit of its length admits the text, and a
limit of one character less does not.
-/
theorem section_limit_counts_closing_brace_unclosed
    : let text := "vertex\x7bin\ta;\x7dfragment\x7bout vec4"
      (∀ b ∈ capturedBlocks text.toList, b.closed = true → b.source.length = 4)
      ∧ (build { source := some ((8 : Nat) : Int) } text).code ≠ 5
      ∧ (build { source := some ((7 : Nat) : Int) } text).code = 5 := by
  intro text
  have closed : ∀ b ∈ capturedBlocks text.toList, b.closed = true → b.source.length = 4 := by
    decide +kernel
  have short : ¬∃ b ∈ capturedBlocks text.toList, 8 < b.source.length := by
    decide +kernel
  have long : ∃ b ∈ capturedBlocks text.toList, 7 < b.source.length := by
    decide +kernel
  refine ⟨closed, ?_, ?_⟩
  · intro refused
    refine short (((section_limit_counts_closing_brace text 8).2 ?_).mp refused)
    intro b member isClosed
    rw [closed b member isClosed]
    decide
  · refine ((section_limit_counts_closing_brace text 7).2 ?_).mpr long
    intro b member isClosed
    rw [closed b member isClosed]
    decide

/-- A source of just the length of the limit is refused. -/
theorem section_limit_refuses_equal_length
    : ¬∀ (text : String) (limit : Nat),
        (build { source := some (limit : Int) } text).code = 5
          ↔ ∃ b ∈ capturedBlocks text.toList, limit < b.source.length := by
  intro documented
  have refused := documented "vertex \x7bin vec3 a;\x7d\nfragment \x7bout vec4 c;\x7d" 11
  revert refused
  decide +kernel

end Scanner

end ShaderReflection
