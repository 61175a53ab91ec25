import ShaderReflection.Proofs.Scanner.BlockInterior
import ShaderReflection.Proofs.Scanner.NestedBlocks
import ShaderReflection.Proofs.Tokens.ParameterItems

/-! Parameter lists of items. Each item gives its parameter at the comma or parenthesis behind it,
and nothing is left of the list but the parameters of the keyword in front of it.
-/

namespace ShaderReflection

namespace Statement

/-- Gives the last keyword parameters one after another. -/
def annotateAll (s : Statement) (entries : List (String × String)) : Statement :=
  entries.foldl (fun s e => s.annotate e.1 e.2) s

theorem annotateAll_append (s : Statement) (first second : List (String × String))
    : s.annotateAll (first ++ second) = (s.annotateAll first).annotateAll second :=
  List.foldl_append

/-- Parameters are set at the last keyword and at no other, by induction along them. -/
theorem keywords_annotateAll {s : Statement} {others : List Keyword} {k : Keyword}
    (last : s.keywords = others ++ [k]) (entries : List (String × String))
    : (s.annotateAll entries).keywords
      = others ++ [{ k with
          parameters := entries.foldl (fun m e => m.insertIfNew e.1 e.2) k.parameters }] := by
  induction entries generalizing s k with
  | nil => exact last
  | cons e rest ih =>
      have held : s.latestFirst = k :: others.reverse := by
        rw [List.reverse_eq_iff.mp last, List.reverse_concat]
      refine ih (s := s.annotate e.1 e.2) (k := { k with
        parameters := k.parameters.insertIfNew e.1 e.2 }) ?_
      simp only [annotate, held, keywords, List.reverse_cons, List.reverse_reverse]

end Statement

/-- Whether a token only adds to what is pending: a word, a comma or `=`. -/
def Token.adds : Token → Bool
  | .word _ => true
  | .mark m => m = .comma ∨ m = .equals

namespace ParameterItem

/-- The parameter that is pending behind an item. -/
def pending : ParameterItem → PendingParameter
  | blank => {}
  | named name => { name }
  | assigned name value => { name, value := value.getD "", inValue := true }

theorem tokens_adds (item : ParameterItem) : ∀ token ∈ item.tokens, token.adds := by
  cases item <;> simp [tokens, Token.adds]

theorem intercalate_adds (items : List ParameterItem)
    : ∀ token ∈ [Token.mark .comma].intercalate (items.map tokens), token.adds := by
  induction items with
  | nil => simp
  | cons item others ih =>
      cases others with
      | nil => simpa using item.tokens_adds
      | cons second more =>
          rw [List.map_cons, List.map_cons, List.intercalate_cons_cons]
          simp only [List.mem_append, or_imp, forall_and]
          exact ⟨⟨item.tokens_adds, by simp [Token.adds]⟩, ih⟩

end ParameterItem

namespace Scanner

open ParameterItem

variable {base s t : Scanner} {item : ParameterItem} {items : List ParameterItem}

-----------------------------------------------------------------------------------------
-- The tokens of items
-----------------------------------------------------------------------------------------

/-- The tokens of an item lead to its pending parameter, by cases on the item. -/
theorem acceptAll_item (inList : s.openLists ≠ 0) (fresh : s.parameter = {}) (item : ParameterItem)
    : s.acceptAll item.tokens = { s with parameter := item.pending } := by
  have word (t : Scanner) (inside : t.openLists ≠ 0) (text : String)
      : t.accept (.word text) = { t with parameter := t.parameter.takeWord text } := by
    rw [accept, acceptWord, if_neg inside]
  have equals (t : Scanner) (inside : t.openLists ≠ 0)
      : t.accept (.mark .equals)
        = { t with parameter := { t.parameter with inValue := true } } := by
    rw [accept, acceptMark, Scanner.equals, if_neg inside]
  cases item with
  | blank =>
      rw [pending, ← fresh]
      rfl
  | named name =>
      simp [acceptAll, ParameterItem.tokens, word, inList, fresh, PendingParameter.takeWord, pending]
  | assigned name value =>
      cases value <;>
        simp [acceptAll, ParameterItem.tokens, word, equals, inList, fresh,
          PendingParameter.takeWord, pending]

/-- Behind an item its parameter is given to the last keyword. -/
theorem commitParameter_item (named : ∀ e ∈ item.parameter?, e.1 ≠ "")
    : { s with parameter := item.pending }.commitParameter
      = { s with
          statement := s.statement.annotateAll item.parameter?.toList
          parameter := {} } := by
  cases item with
  | blank => rfl
  | named name | assigned name value =>
      have some : name ≠ "" := named _ rfl
      simp [commitParameter, pending, some, parameter?, Statement.annotateAll]

/-- Items with commas between them give their parameters one after another. By induction along the
items; between two of them no parameter is pending.
-/
theorem commitParameter_items (inList : s.openLists ≠ 0) (fresh : s.parameter = {})
    (named : ∀ item ∈ items, ∀ e ∈ item.parameter?, e.1 ≠ "")
    : (s.acceptAll ([Token.mark .comma].intercalate (items.map ParameterItem.tokens))).commitParameter
      = { s with statement := s.statement.annotateAll (items.filterMap parameter?) } := by
  rw [List.filterMap_eq_flatMap_toList]
  induction items generalizing s with
  | nil =>
      have unnamed : ∀ e ∈ blank.parameter?, e.1 ≠ "" := by simp [parameter?]
      have none := commitParameter_item (s := s) unnamed
      rw [pending, ← fresh] at none
      exact none
  | cons item others ih =>
      obtain ⟨first, named⟩ := List.forall_mem_cons.mp named
      have given := commitParameter_item (s := s) first
      rw [← acceptAll_item inList fresh, ← fresh] at given
      cases others with
      | nil => simpa using given
      | cons second more =>
          have behind : (s.acceptAll item.tokens).openLists ≠ 0 := by
            rwa [acceptAll_item inList fresh]
          have divided : (s.acceptAll item.tokens).acceptAll [.mark .comma]
              = (s.acceptAll item.tokens).commitParameter := if_neg behind
          rw [List.map_cons, List.map_cons, List.intercalate_cons_cons, acceptAll_append,
            acceptAll_append, divided, given, List.flatMap_cons, Statement.annotateAll_append]
          exact ih (s := { s with statement := s.statement.annotateAll item.parameter?.toList })
            inList fresh named

-----------------------------------------------------------------------------------------
-- From the opening parenthesis to the closing one
-----------------------------------------------------------------------------------------

/-- The statement being read, with the pending word as its last. -/
def pendingStatement (s : Scanner) : Statement :=
  if s.word.isEmpty then s.statement else s.statement.push s.word.text

theorem flushWord_outside (outside : s.openLists = 0)
    : s.flushWord = { s with word := {}, statement := s.pendingStatement } := by
  unfold pendingStatement
  cases pending : s.word.isEmpty with
  | true =>
      have none : s.word = {} := Buffer.isEmpty_iff.mp pending
      rw [flushWord_of_empty pending, if_pos rfl, ← none]
  | false =>
      rw [flushWord_of_pending pending, if_neg Bool.false_ne_true]
      exact if_pos outside

theorem accept_of_adds {token : Token} (adds : token.adds)
    : ∃ statement parameter, s.accept token = { s with statement, parameter } := by
  cases token with
  | word text =>
      rw [accept, acceptWord]
      split <;> exact ⟨_, _, rfl⟩
  | mark mark =>
      rcases of_decide_eq_true adds with rfl | rfl
      · rw [accept, acceptMark, comma]
        split <;> exact ⟨_, _, rfl⟩
      · rw [accept, acceptMark, equals]
        split <;> exact ⟨_, _, rfl⟩

theorem SamePending.acceptAll (h : SamePending s t) (tokens : List Token)
    : SamePending (s.acceptAll tokens) (t.acceptAll tokens) := by
  induction tokens generalizing s t with
  | nil => exact h
  | cons token rest ih => exact ih (h.accept token)

/-- `s` is inside a parameter list that `base` has opened. Behind the tokens to come it has the same
input pending as `target`, and nothing but what is pending changes.
-/
structure Listing (base target : Scanner) (rest : List Token) (s : Scanner) : Prop where
  adds : ∀ token ∈ rest, token.adds
  pending : SamePending (s.acceptAll rest) target
  depth : s.depth = base.depth
  place : s.block.map Block.place = base.block.map Block.place
  declarations : s.declarations = base.declarations
  sources : s.sources = base.sources
  warnings : s.warnings = base.warnings

/-- Inside a list a text leads on token by token. -/
theorem Listing.kept (base target : Scanner) : KeptByTokens (Listing base target) where
  accept := by
    intro token rest s h
    obtain ⟨now, later⟩ := List.forall_mem_cons.mp h.adds
    have pending : SamePending ((s.accept token).acceptAll rest) target := h.pending
    obtain ⟨statement, parameter, added⟩ := s.accept_of_adds now
    rw [added] at pending ⊢
    exact { h with adds := later, pending }
  hidden := by
    intro rest s lineNumber word inComment h
    have same : SamePending { s with lineNumber, word, inComment } s := ⟨rfl, rfl, rfl⟩
    exact { h with pending := (same.acceptAll rest).trans h.pending }
  captured := by
    intro rest s c h
    have same : SamePending (s.captured c) s := ⟨rfl, rfl, rfl⟩
    exact { h with
      pending := (same.acceptAll rest).trans h.pending
      place := (s.captured_place c).trans h.place }

/-- A list is opened behind the pending word. -/
theorem openParenthesis_outside (outside : s.openLists = 0)
    : s.flushWord.openParenthesis
      = { s with openLists := 1, word := {}, statement := s.pendingStatement, parameter := {} } := by
  rw [flushWord_outside outside, openParenthesis]
  simp only [outside, Nat.zero_add]

/-- The parenthesis that closes a list leaves the statement with the last parameter given to it, and
nothing else.
-/
theorem Listing.closeParenthesis {target : Scanner} {statement : Statement}
    (h : Listing base target [] s) (inList : base.openLists = 1)
    (given : target.commitParameter = { base with statement })
    : s.closeParenthesis
      = { base with
          lineNumber := s.lineNumber
          block := s.block
          openLists := 0
          word := s.word
          statement
          parameter := {}
          inComment := s.inComment } := by
  have same : SamePending s target := h.pending
  have listed : s.openLists = 1 := by
    have kept : target.openLists = target.commitParameter.openLists := rfl
    rw [same.openLists, kept, given, inList]
  have committed : s.commitParameter.statement = statement := by
    have alike : s.commitParameter.statement = target.commitParameter.statement := by
      simp only [commitParameter, same.statement, same.parameter]
    rw [alike, given]
  have closes
      : s.closeParenthesis
        = { s with openLists := 0, statement := s.commitParameter.statement, parameter := {} } := by
    rw [Scanner.closeParenthesis, if_neg (by omega)]
    simp only [commitParameter, listed, Nat.sub_self]
  rw [closes, committed, h.depth, h.declarations, h.sources, h.warnings]

/-- A parameter list of items gives the last keyword the parameters of its items. Nothing else is
left of it but its captured text: the tokens between the parentheses only add to what is pending,
and the closing parenthesis clears that.
-/
theorem feedAll_parameterList {texts : List (List Char)} (outside : s.openLists = 0)
    (idle : s.parameter = {}) (code : s.inComment = false)
    (written : List.Forall₂ Written items texts)
    : ∃ t,
        s.feedAll {} ('(' :: [','].intercalate texts ++ [')']) = .ok t
        ∧ t.statement = s.pendingStatement.annotateAll (items.filterMap parameter?)
        ∧ SameButCapture t { s with word := {}, statement := t.statement } := by
  let base := { s.captured '(' with
    openLists := 1, word := {}, statement := s.pendingStatement, parameter := {} }
  let target := base.acceptAll ([Token.mark .comma].intercalate (items.map ParameterItem.tokens))
  have opened : (s.captured '(').flushWord.acceptMark .openParenthesis = base :=
    openParenthesis_outside outside
  have given
      : target.commitParameter
        = { base with statement := s.pendingStatement.annotateAll (items.filterMap parameter?) } :=
    commitParameter_items Nat.one_ne_zero rfl (names_nonempty written)
  have start
      : Listing base target
          (Token.scanning base.inComment base.word.chars.toList ([','].intercalate texts)) base := by
    have coming
        : Token.scanning s.inComment [] ([','].intercalate texts)
          = [Token.mark .comma].intercalate (items.map ParameterItem.tokens) := by
      rw [code, ← Token.ofText_eq_scanning, ofText_intercalate written]
    change Listing base target (Token.scanning s.inComment [] _) base
    rw [coming]
    exact ⟨intercalate_adds items, ⟨rfl, rfl, rfl⟩, rfl, rfl, rfl, rfl, rfl⟩
  have kept := Listing.kept base target
  obtain ⟨v, through, read⟩ := kept.feedAll start
  have codeBehind : v.inComment = false :=
    feedAll_code (s := base) code (noComment_intercalate written) through
  -- The word in front of the closing parenthesis is the last token of the items.
  have last := kept.captured ')' read
  rw [← List.append_nil (Token.ofPending _)] at last
  have listing := kept.flushWord (s := v.captured ')') [] last
  have spot := (v.captured ')').flushWord_spot
  have closed := listing.closeParenthesis rfl given
  rw [spot.word, spot.inComment.trans codeBehind] at closed
  refine ⟨(v.captured ')').flushWord.closeParenthesis, ?_, ?_, ?_, ?_⟩
  · rw [List.cons_append, feedAll_mark .openParenthesis rfl code, opened,
      feedAll_append {} base _ _ (by simp), through]
    exact feedAll_mark .closeParenthesis rfl codeBehind []
  · rw [closed]
  · rw [closed]
    exact listing.place.trans (s.captured_place '(')
  · rw [closed, ← outside, ← idle, ← code]
    rfl

end Scanner

end ShaderReflection
