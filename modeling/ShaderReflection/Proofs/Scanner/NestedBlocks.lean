import Mathlib.Data.List.Infix
import ShaderReflection.Proofs.Scanner.TokenInvariants

/-! Blocks nested inside the block of a section. Whatever stands between their braces, as long as
braces and parentheses pair up, is dropped statement by statement and leaves no trace but its
captured text.
-/

namespace ShaderReflection

/-- Tokens in which two marks pair up: from the start on, never more are closed than opened, and in
the end all are closed.
-/
structure Token.Balanced (opening closing : Mark) (tokens : List Token) : Prop where
  nested : ∀ part, part <+: tokens → part.count (.mark closing) ≤ part.count (.mark opening)
  closed : tokens.count (.mark closing) = tokens.count (.mark opening)

instance (opening closing : Mark) (tokens : List Token)
    : Decidable (Token.Balanced opening closing tokens) :=
  decidable_of_iff
    ((∀ part ∈ tokens.inits, part.count (.mark closing) ≤ part.count (.mark opening))
      ∧ tokens.count (.mark closing) = tokens.count (.mark opening))
    (by
      simp only [List.mem_inits]
      exact ⟨fun h => ⟨h.1, h.2⟩, fun h => ⟨h.nested, h.closed⟩⟩)

theorem Token.balanced_nil (opening closing : Mark) : Token.Balanced opening closing [] where
  nested := fun part start => by simp [List.prefix_nil.mp start]
  closed := rfl

namespace Scanner

variable {base s t u : Scanner} {taken tokens : List Token}

-----------------------------------------------------------------------------------------
-- Statements that are not directly inside a block are dropped
-----------------------------------------------------------------------------------------

/-- A scan inside a block, but not directly inside it. -/
def Deep (s : Scanner) : Prop :=
  ∃ block, s.block = some block ∧ block.outerDepth + 1 < s.depth

theorem Deep.finishStatement (deep : s.Deep) : s.finishStatement = { s with statement := {} } := by
  obtain ⟨block, inside, below⟩ := deep
  rw [finishStatement_inside inside, if_neg (by omega)]

theorem Deep.openBrace (deep : s.Deep)
    : s.openBrace = { s with statement := {}, depth := s.depth + 1 } := by
  obtain ⟨block, inside, _⟩ := id deep
  have nested : s.enteredSection? = none := by simp only [enteredSection?, inside]
  rw [openBrace_nested nested, deep.finishStatement]

theorem Deep.closeBrace (deep : s.Deep)
    : s.closeBrace = { s with statement := {}, depth := s.depth - 1 } := by
  obtain ⟨block, inside, below⟩ := id deep
  rw [closeBrace_inside (by omega) inside, if_neg (by omega), deep.finishStatement]

-----------------------------------------------------------------------------------------
-- Below a brace
-----------------------------------------------------------------------------------------

/-- `s` has taken in some tokens since `base`: it is as much deeper as they open braces, in as many
parameter lists as they open, and has collected nothing.
-/
structure Below (base : Scanner) (taken : List Token) (s : Scanner) : Prop where
  depth
    : s.depth + taken.count (.mark .closeBrace) = base.depth + taken.count (.mark .openBrace)
  openLists
    : s.openLists + taken.count (.mark .closeParenthesis)
      = taken.count (.mark .openParenthesis)
  idle : s.openLists = 0 → s.parameter = {}
  place : s.block.map Block.place = base.block.map Block.place
  declarations : s.declarations = base.declarations
  sources : s.sources = base.sources
  warnings : s.warnings = base.warnings

theorem Below.deep (h : Below base taken s) (deep : base.Deep)
    (braces : taken.count (.mark .closeBrace) ≤ taken.count (.mark .openBrace))
    : s.Deep := by
  obtain ⟨around, inside, below⟩ := deep
  have place := h.place
  rw [inside, Option.map_some] at place
  obtain ⟨block, found, same⟩ := Option.map_eq_some_iff.mp place
  have outer : block.outerDepth = around.outerDepth := congrArg Prod.snd same
  have depth := h.depth
  exact ⟨block, found, by omega⟩

/-- A token that is neither brace nor parenthesis leads on with what is pending only. -/
theorem Below.plain (h : Below base taken s) {token : Token}
    (unpaired : ∀ m ∈ [Mark.openBrace, .closeBrace, .openParenthesis, .closeParenthesis],
      token ≠ .mark m)
    (statement : Statement) {parameter : PendingParameter}
    (idle : s.openLists = 0 → parameter = {})
    : Below base (taken ++ [token]) { s with statement, parameter } := by
  have same (m : Mark)
      (among : m ∈ [Mark.openBrace, .closeBrace, .openParenthesis, .closeParenthesis])
      : (taken ++ [token]).count (.mark m) = taken.count (.mark m) := by
    rw [List.count_append, List.count_singleton, if_neg (by simpa using unpaired m among)]
    rfl
  refine { h with depth := ?_, openLists := ?_, idle := idle }
  · rw [same .openBrace (by decide), same .closeBrace (by decide)]
    exact h.depth
  · rw [same .openParenthesis (by decide), same .closeParenthesis (by decide)]
    exact h.openLists

/-- Tokens that close no more than was opened lead on below the brace, by cases on the token. -/
theorem Below.accept (h : Below base taken s) (deep : s.Deep) (token : Token)
    (paired
      : (taken ++ [token]).count (.mark .closeParenthesis)
        ≤ (taken ++ [token]).count (.mark .openParenthesis))
    : Below base (taken ++ [token]) (s.accept token) := by
  have depth := h.depth
  have openLists := h.openLists
  cases token with
  | word text =>
      simp only [Scanner.accept, acceptWord]
      split
      · exact h.plain (by simp) _ h.idle
      · next inList => exact h.plain (by simp) _ fun outside => absurd outside inList
  | mark mark =>
      cases mark with
      | openBrace =>
          rw [Scanner.accept, acceptMark, deep.openBrace]
          refine { h with depth := ?_, openLists := ?_ }
          · simp [List.count_append]
            omega
          · simpa [List.count_append] using openLists
      | closeBrace =>
          obtain ⟨block, _, below⟩ := id deep
          rw [Scanner.accept, acceptMark, deep.closeBrace]
          refine { h with depth := ?_, openLists := ?_ }
          · simp [List.count_append]
            omega
          · simpa [List.count_append] using openLists
      | openParenthesis =>
          simp only [Scanner.accept, acceptMark, openParenthesis]
          refine { h with depth := ?_, openLists := ?_, idle := fun _ => rfl }
          · simpa [List.count_append] using depth
          · simp [List.count_append]
            omega
      | closeParenthesis =>
          -- The list was opened below the brace, so the parameter is given to a keyword of a statement
          -- that is dropped.
          have inList : s.openLists ≠ 0 := by
            simp [List.count_append] at paired
            omega
          simp only [Scanner.accept, acceptMark, closeParenthesis, if_neg inList, commitParameter]
          refine { h with depth := ?_, openLists := ?_, idle := fun _ => rfl }
          · simpa [List.count_append] using depth
          · simp [List.count_append]
            omega
      | comma =>
          simp only [Scanner.accept, acceptMark, comma]
          split
          · exact h.plain (by simp) _ h.idle
          · exact h.plain (by simp) _ fun _ => rfl
      | semicolon =>
          rw [Scanner.accept, acceptMark, deep.finishStatement]
          exact h.plain (by simp) _ h.idle
      | equals =>
          simp only [Scanner.accept, acceptMark, equals]
          split
          · exact h.plain (by simp) _ h.idle
          · next inList => exact h.plain (by simp) _ fun outside => absurd outside inList

/-- A captured character leaves the block in its place. -/
theorem captured_place (s : Scanner) (c : Char)
    : (s.captured c).block.map Block.place = s.block.map Block.place := by
  have same (block : Block) : (block.capture c).place = block.place :=
    Prod.ext (block.capture_place c).1 (block.capture_place c).2
  rw [captured, Option.map_map]
  exact congrArg (s.block.map ·) (funext same)

/-- Below a brace a text leads on token by token, as long as it closes no brace and no parameter
list that it does not open.
-/
theorem Below.kept (deep : base.Deep)
    (braces : Token.Balanced .openBrace .closeBrace tokens)
    (parentheses : Token.Balanced .openParenthesis .closeParenthesis tokens)
    : KeptByTokens fun rest s => ∃ taken, taken ++ rest = tokens ∧ Below base taken s where
  accept := by
    rintro token rest s ⟨taken, rfl, h⟩
    have here : taken <+: taken ++ token :: rest := List.prefix_append taken _
    have next : taken ++ [token] <+: taken ++ token :: rest := ⟨rest, by simp⟩
    exact ⟨taken ++ [token], by simp,
      h.accept (h.deep deep (braces.nested _ here)) token (parentheses.nested _ next)⟩
  hidden := by
    rintro rest s lineNumber word inComment ⟨taken, whole, h⟩
    exact ⟨taken, whole, { h with }⟩
  captured := by
    rintro rest s c ⟨taken, whole, h⟩
    exact ⟨taken, whole, { h with place := (s.captured_place c).trans h.place }⟩

/-- The brace that closes the block leaves nothing of what was taken in between. -/
theorem Below.closeBrace (h : Below base tokens s) (deep : base.Deep)
    (braces : tokens.count (.mark .closeBrace) = tokens.count (.mark .openBrace))
    (parentheses
      : tokens.count (.mark .closeParenthesis) = tokens.count (.mark .openParenthesis))
    : s.closeBrace
      = { base with
          lineNumber := s.lineNumber
          depth := base.depth - 1
          block := s.block
          openLists := 0
          word := s.word
          statement := {}
          parameter := {}
          inComment := s.inComment } := by
  have depth : s.depth = base.depth := by
    have := h.depth
    omega
  have openLists : s.openLists = 0 := by
    have := h.openLists
    omega
  rw [(h.deep deep braces.le).closeBrace, depth, openLists, h.idle openLists, h.declarations,
    h.sources, h.warnings]

-----------------------------------------------------------------------------------------
-- From the opening brace to the closing one
-----------------------------------------------------------------------------------------

/-- Two scans that differ in the captured text and the line number only. -/
structure SameButCapture (t u : Scanner) : Prop where
  place : t.block.map Block.place = u.block.map Block.place
  others : { t with lineNumber := u.lineNumber, block := u.block } = u

/-- A scan that has just opened a block inside a section block. -/
structure Opened (base : Scanner) : Prop where
  deep : base.Deep
  openLists : base.openLists = 0
  word : base.word = {}
  parameter : base.parameter = {}
  code : base.inComment = false

/-- `t` has come out of the block that `base` has just opened, with nothing of it collected. -/
structure Closes (base t : Scanner) : Prop where
  place : t.block.map Block.place = base.block.map Block.place
  others
    : t
      = { base with
          lineNumber := t.lineNumber
          depth := base.depth - 1
          block := t.block
          openLists := 0
          word := {}
          statement := {}
          parameter := {}
          inComment := false }

theorem Closes.sameButCapture (h : Closes base t) (k : Closes base u) : SameButCapture t u where
  place := h.place.trans k.place.symm
  others := by rw [h.others, k.others]

theorem Closes.word (h : Closes base t) : t.word = {} := by
  rw [h.others]

theorem feedAll_mark (mark : Mark) {c : Char} (isMark : Mark.ofChar? c = some mark)
    (code : s.inComment = false) (rest : List Char)
    : s.feedAll {} (c :: rest)
      = ((s.captured c).flushWord.acceptMark mark).feedAll {} rest := by
  rw [feedAll, feed_unlimited, advance_of_mark isMark code]
  rfl

/-- A brace inside a section block opens a block there, unless it stands in a parameter list. -/
theorem Steady.openBrace {block : Block} (steady : s.Steady {}) (inside : s.block = some block)
    (openLists : s.openLists = 0) (word : s.word = {}) (code : s.inComment = false)
    : s.openBrace.Opened := by
  have nested : s.enteredSection? = none := by simp only [enteredSection?, inside]
  have below := steady.nested block inside
  have done := s.finished
  rw [openBrace_nested nested, done.depth]
  exact
    { deep := ⟨block, done.block.trans inside, Nat.add_lt_add_right below 1⟩
      openLists := done.openLists.trans openLists
      word := done.word.trans word
      parameter := done.parameter.trans (steady.coherent.idle openLists)
      code := done.inComment.trans code }

/-- A block with balanced contents is passed up to its closing brace. The word in front of that
brace is the last token of the contents.
-/
theorem Opened.feedAll_closes (h : base.Opened) (inner : List Char)
    (braces : Token.Balanced .openBrace .closeBrace (Token.ofText inner))
    (parentheses : Token.Balanced .openParenthesis .closeParenthesis (Token.ofText inner))
    (noComment : ∀ last ∈ (Text.lines inner).getLast?, ¬['/', '/'] <:+: last)
    : ∃ t, base.feedAll {} (inner ++ ['\x7d']) = .ok t ∧ Closes base t := by
  -- The tokens still to come are those that `taken` lacks; behind the contents none is left.
  have kept := Below.kept h.deep braces parentheses
  have start : Below base [] base :=
    ⟨rfl, by simp [h.openLists], fun _ => h.parameter, rfl, rfl, rfl, rfl⟩
  have coming
      : Token.scanning base.inComment base.word.chars.toList inner = Token.ofText inner := by
    rw [h.code, h.word, Token.ofText_eq_scanning]
  obtain ⟨v, fed, pending⟩ := kept.feedAll ⟨[], coming, start⟩
  have code : v.inComment = false := by
    obtain ⟨first, more, lines⟩ := List.exists_cons_of_ne_nil (Text.split_ne_nil '\n' inner)
    have lines : Text.lines inner = first :: more := lines
    exact feedAll_inComment lines (fun _ => h.code) (lines ▸ noComment) fed
  have last := kept.captured '\x7d' pending
  rw [← List.append_nil (Token.ofPending _)] at last
  obtain ⟨taken, whole, below⟩ := kept.flushWord (s := v.captured '\x7d') [] last
  rw [List.append_nil] at whole
  subst whole
  have spot := (v.captured '\x7d').flushWord_spot
  have closed := below.closeBrace h.deep braces.closed parentheses.closed
  rw [spot.word, spot.inComment.trans code] at closed
  refine ⟨(v.captured '\x7d').flushWord.closeBrace, ?_, ?_, ?_⟩
  · rw [feedAll_append {} base inner _ (by simp), fed]
    exact feedAll_mark .closeBrace (c := '\x7d') rfl code []
  · rw [closed]
    exact below.place
  · rw [closed]

/-- A block inside a section block leaves what an empty one would: both are opened alike, and
nothing that is taken in between is left when they are closed.
-/
theorem Steady.feedAll_nested_block {inner : List Char} {block : Block} (steady : s.Steady {})
    (inside : s.block = some block) (openLists : s.openLists = 0) (code : s.inComment = false)
    (braces : Token.Balanced .openBrace .closeBrace (Token.ofText inner))
    (parentheses : Token.Balanced .openParenthesis .closeParenthesis (Token.ofText inner))
    (noComment : ∀ last ∈ (Text.lines inner).getLast?, ¬['/', '/'] <:+: last)
    : ∃ t u,
        s.feedAll {} ('\x7b' :: inner ++ ['\x7d']) = .ok t
        ∧ s.feedAll {} ['\x7b', '\x7d'] = .ok u
        ∧ t.word = {}
        ∧ u.word = {}
        ∧ SameButCapture t u := by
  have spot := (s.captured '\x7b').flushWord_spot
  have around : (s.captured '\x7b').flushWord.block = some (block.capture '\x7b') := by
    rw [(s.captured '\x7b').flushWord_place.block, Scanner.captured, inside, Option.map_some]
  have opened := (steady.captured '\x7b').flushWord.openBrace around
    ((s.captured '\x7b').flushWord_openLists.trans openLists) spot.word (spot.inComment.trans code)
  obtain ⟨t, through, closes⟩ := opened.feedAll_closes inner braces parentheses noComment
  have nothing : Token.ofText [] = [] := by
    rw [Token.ofText_eq_scanning]
    rfl
  obtain ⟨u, empty, closed⟩ :=
    opened.feedAll_closes [] (nothing ▸ Token.balanced_nil _ _) (nothing ▸ Token.balanced_nil _ _)
      (by decide)
  refine ⟨t, u, ?_, ?_, closes.word, closed.word, closes.sameButCapture closed⟩
  · exact (feedAll_mark .openBrace rfl code _).trans through
  · exact (feedAll_mark .openBrace rfl code _).trans empty

end Scanner

end ShaderReflection
