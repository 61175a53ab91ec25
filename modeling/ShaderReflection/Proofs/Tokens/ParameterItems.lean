import Mathlib.Data.List.Forall2
import ShaderReflection.Proofs.Tokens.TextTokens
import ShaderReflection.Proofs.Tokens.Words

/-! What stands between two commas of a parameter list, how it can be written, and the tokens that
are found in it. Around words and `=` there may be any spaces, tabs and line breaks.
-/

namespace ShaderReflection

-----------------------------------------------------------------------------------------
-- Texts without comments
-----------------------------------------------------------------------------------------

namespace Token

open CharClass

/-- Without comments a text is read like a line, by induction along it: a line break ends a word as
any separator does.
-/
theorem scanning_eq_reading {cs : List Char} (word : List Char) (noComment : ¬['/', '/'] <:+: cs)
    : scanning false word cs = reading word cs := by
  induction cs generalizing word with
  | nil => rfl
  | cons c rest ih =>
      obtain ⟨apart, noComment⟩ := Text.noComment_cons_iff.mp noComment
      have ih (word : List Char) := ih word noComment
      rw [scanning, reading]
      by_cases lineBreak : c = '\n'
      · have separates : CharClass.of c rest.head? = .separator :=
          of_eq_separator_iff.mpr (by rw [lineBreak]; rfl)
        rw [if_pos lineBreak, separates, ih]
      · rw [if_neg lineBreak, if_neg Bool.false_ne_true]
        cases kind : CharClass.of c rest.head? with
        | mark m => rw [ih]
        | separator => rw [ih]
        | wordChar => exact ih (word ++ [c])
        | commentStart => exact absurd (of_eq_commentStart_iff.mp kind) apart

theorem ofText_eq_runs {cs : List Char} (noComment : ¬['/', '/'] <:+: cs)
    : ofText cs = runs cs := by
  rw [ofText_eq_scanning, scanning_eq_reading [] noComment, reading_eq_runs [] cs (by simp),
    (Text.beforeComment_eq_self_iff cs).mpr noComment, List.nil_append]

end Token

-----------------------------------------------------------------------------------------
-- Gaps and words
-----------------------------------------------------------------------------------------

namespace Text

/-- Characters that only separate words. -/
def IsGap (cs : List Char) : Prop :=
  ∀ c ∈ cs, CharClass.isSeparator c

instance : DecidablePred IsGap := fun cs =>
  List.decidableBAll (fun c => CharClass.isSeparator c) cs

/-- A word with a gap on either side. -/
def IsPadded (word : String) (cs : List Char) : Prop :=
  IsWord word ∧ ∃ left right, IsGap left ∧ IsGap right ∧ cs = left ++ word.toList ++ right

variable {word : String} {cs rest : List Char}

theorem IsGap.noSlash (gap : IsGap cs) : '/' ∉ cs :=
  fun member => Bool.noConfusion (gap '/' member)

theorem noComment_of_noSlash (noSlash : '/' ∉ cs) : ¬['/', '/'] <:+: cs :=
  fun comment => noSlash (comment.subset (by simp))

/-- A gap holds no token, by induction along it. -/
theorem IsGap.runs_append (gap : IsGap cs) (rest : List Char)
    : Token.runs (cs ++ rest) = Token.runs rest := by
  induction cs with
  | nil => rfl
  | cons c more ih =>
      obtain ⟨separates, gap⟩ := List.forall_mem_cons.mp gap
      rw [List.cons_append, Token.runs_separator c _ separates, ih gap]

/-- A word between gaps is one token, as long as no word character follows. -/
theorem IsPadded.runs_append (padded : IsPadded word cs)
    (stops : ∀ c ∈ rest.head?, CharClass.isWordChar c = false)
    : Token.runs (cs ++ rest) = .word word :: Token.runs rest := by
  obtain ⟨isWord, left, right, gapLeft, gapRight, rfl⟩ := padded
  have nonempty : word.toList ≠ [] := by simpa using isWord.nonempty
  have behind : ∀ c ∈ (right ++ rest).head?, CharClass.isWordChar c = false := by
    cases right with
    | nil => exact stops
    | cons c more =>
        rintro _ ⟨⟩
        simp [CharClass.isWordChar, gapRight c (by simp)]
  rw [List.append_assoc, List.append_assoc, gapLeft.runs_append,
    Token.runs_append_of_word _ _ isWord.wordlike.inWord behind, gapRight.runs_append,
    Token.ofPending, if_neg nonempty, String.ofList_toList, List.singleton_append]

/-- Gaps make no comment with the word between them. -/
theorem IsPadded.noComment (padded : IsPadded word cs) : ¬['/', '/'] <:+: cs := by
  obtain ⟨isWord, left, right, gapLeft, gapRight, rfl⟩ := padded
  rw [List.append_assoc]
  refine noComment_append (noComment_of_noSlash gapLeft.noSlash) ?_ ?_
  · refine noComment_append isWord.wordlike.noComment (noComment_of_noSlash gapRight.noSlash) ?_
    exact fun _ slash => gapRight.noSlash (List.mem_of_mem_head? slash)
  · exact fun slash => absurd (List.mem_of_getLast? slash) gapLeft.noSlash

/-- A mark makes no comment with the texts around it. -/
theorem noComment_mark {c : Char} {before behind : List Char} (isMark : (Mark.ofChar? c).isSome)
    (left : ¬['/', '/'] <:+: before) (right : ¬['/', '/'] <:+: behind)
    : ¬['/', '/'] <:+: before ++ c :: behind := by
  have noSlash : c ≠ '/' := by
    rintro rfl
    cases isMark
  have alone : ¬['/', '/'] <:+: [c] := noComment_of_noSlash (by simpa using noSlash.symm)
  refine noComment_append left ?_ (by simpa using fun _ => noSlash)
  exact noComment_append alone right (by simp [noSlash])

theorem stops_of_mark {c : Char} (isMark : (Mark.ofChar? c).isSome) (rest : List Char)
    : ∀ d ∈ (c :: rest).head?, CharClass.isWordChar d = false := by
  rintro _ ⟨⟩
  simp [CharClass.isWordChar, Option.isSome_iff_ne_none.mp isMark]

end Text

-----------------------------------------------------------------------------------------
-- Items
-----------------------------------------------------------------------------------------

/-- What stands between two commas of a parameter list. -/
inductive ParameterItem where
  | blank
  | named (name : String)
  /-- A name and `=`, with or without a value. -/
  | assigned (name : String) (value : Option String)

namespace ParameterItem

/-- The parameter that an item gives, with the empty value if it has none. -/
def parameter? : ParameterItem → Option (String × String)
  | blank => none
  | named name => some (name, "")
  | assigned name value => some (name, value.getD "")

/-- The tokens of an item. -/
def tokens : ParameterItem → List Token
  | blank => []
  | named name => [.word name]
  | assigned name value => [.word name, .mark .equals] ++ value.toList.map .word

/-- The ways of writing an item. -/
inductive Written : ParameterItem → List Char → Prop
  | blank {gap : List Char} (isGap : Text.IsGap gap) : Written blank gap
  | named {name : String} {cs : List Char} (padded : Text.IsPadded name cs)
    : Written (named name) cs
  | unvalued {name : String} {cs gap : List Char} (padded : Text.IsPadded name cs)
    (isGap : Text.IsGap gap)
    : Written (assigned name none) (cs ++ '=' :: gap)
  | valued {name value : String} {cs ds : List Char} (padded : Text.IsPadded name cs)
    (given : Text.IsPadded value ds)
    : Written (assigned name (some value)) (cs ++ '=' :: ds)

variable {item : ParameterItem} {cs rest : List Char}

/-- The name of an item is a word. -/
theorem Written.isWord (written : Written item cs) : ∀ e ∈ item.parameter?, Text.IsWord e.1 := by
  cases written with
  | blank => simp [parameter?]
  | named padded | unvalued padded | valued padded =>
      rintro _ ⟨⟩
      exact padded.1

/-- However an item is written, it holds no comment. -/
theorem Written.noComment (written : Written item cs) : ¬['/', '/'] <:+: cs := by
  cases written with
  | blank isGap => exact Text.noComment_of_noSlash isGap.noSlash
  | named padded => exact padded.noComment
  | unvalued padded isGap =>
      exact Text.noComment_mark rfl padded.noComment (Text.noComment_of_noSlash isGap.noSlash)
  | valued padded given => exact Text.noComment_mark rfl padded.noComment given.noComment

/-- However an item is written, its tokens are found in it, by cases on the way of writing. -/
theorem Written.runs_append (written : Written item cs)
    (stops : ∀ c ∈ rest.head?, CharClass.isWordChar c = false)
    : Token.runs (cs ++ rest) = item.tokens ++ Token.runs rest := by
  cases written with
  | blank isGap => exact isGap.runs_append rest
  | named padded => exact padded.runs_append stops
  | unvalued padded isGap =>
      rw [List.append_assoc, List.cons_append, padded.runs_append (Text.stops_of_mark rfl _),
        Token.runs_mark .equals _ _ rfl, isGap.runs_append]
      rfl
  | valued padded given =>
      rw [List.append_assoc, List.cons_append, padded.runs_append (Text.stops_of_mark rfl _),
        Token.runs_mark .equals _ _ rfl, given.runs_append stops]
      rfl

variable {items : List ParameterItem} {texts : List (List Char)}

theorem names_nonempty (written : List.Forall₂ Written items texts)
    : ∀ item ∈ items, ∀ e ∈ item.parameter?, e.1 ≠ "" := by
  have both := written.imp fun _ _ h => And.intro h.isWord h
  exact fun item member e given =>
    (((List.forall₂_and_left _ _).mp both).1 item member e given).nonempty

theorem noComment_intercalate (written : List.Forall₂ Written items texts)
    : ¬['/', '/'] <:+: [','].intercalate texts := by
  induction written with
  | nil => simp
  | cons first others ih =>
      cases others with
      | nil => simpa using first.noComment
      | cons second more =>
          rw [List.intercalate_cons_cons, List.append_assoc, List.singleton_append]
          exact Text.noComment_mark rfl first.noComment ih

/-- In items with commas between them the tokens of the items are found, with commas between them.
By induction along the items.
-/
theorem ofText_intercalate (written : List.Forall₂ Written items texts)
    : Token.ofText ([','].intercalate texts)
      = [Token.mark .comma].intercalate (items.map tokens) := by
  rw [Token.ofText_eq_runs (noComment_intercalate written)]
  induction written with
  | nil => simp [Token.runs]
  | cons first others ih =>
      cases others with
      | nil =>
          have stops : ∀ c ∈ ([] : List Char).head?, CharClass.isWordChar c = false := by simp
          simpa [Token.runs] using first.runs_append stops
      | cons second more =>
          rw [List.intercalate_cons_cons, List.append_assoc, List.singleton_append,
            first.runs_append (Text.stops_of_mark rfl _), Token.runs_mark .comma _ _ rfl, ih]
          simp [List.intercalate_cons_cons]

end ParameterItem

end ShaderReflection
