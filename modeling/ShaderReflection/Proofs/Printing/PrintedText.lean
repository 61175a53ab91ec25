import ShaderReflection.Proofs.Build.TokenDetermined
import ShaderReflection.Proofs.Printing.DeclaredVariable

/-! The text of a shader that declares given variables, and its tokens. -/

namespace ShaderReflection

/-- The lines of a section with a declaration on each line inside its braces. -/
def Section.printedLines (name : Section) (declared : List DeclaredVariable) : List String :=
  (name.keyword ++ " \x7b") :: declared.map DeclaredVariable.line ++ ["\x7d"]

/-- The text of a shader whose two stages declare the given variables. -/
def Shader.print (vertex fragment : List DeclaredVariable) : String :=
  "\n".intercalate (Section.vertex.printedLines vertex ++ Section.fragment.printedLines fragment)

namespace Text

theorem split_of_not_mem {separator : Char} {cs : List Char} (absent : separator ∉ cs)
    : split separator cs = [cs] := by
  induction cs with
  | nil => rfl
  | cons c rest ih =>
      have differs : c ≠ separator := fun same => absent (by simp [same])
      have later := ih fun member => absent (by simp [member])
      rw [split, List.foldr_cons, ← split, later, consPart, if_neg differs]

/-- Lines without line breaks are found again, by induction along them. -/
theorem lines_intercalate {lines : List String} (nonempty : lines ≠ [])
    (unbroken : ∀ line ∈ lines, '\n' ∉ line.toList)
    : Text.lines ("\n".intercalate lines).toList = lines.map String.toList := by
  induction lines with
  | nil => exact absurd rfl nonempty
  | cons line rest ih =>
      have first : split '\n' line.toList = [line.toList] :=
        split_of_not_mem (unbroken line (by simp))
      cases rest with
      | nil => simpa [Text.lines] using first
      | cons next more =>
          have later := ih (by simp) fun other member => unbroken other (by simp [member])
          have text : ("\n".intercalate (line :: next :: more)).toList
              = line.toList ++ '\n' :: ("\n".intercalate (next :: more)).toList := by
            rw [String.intercalate_cons_cons, String.toList_append, String.toList_append]
            simp
          rw [text, Text.lines, split_append, first, ← Text.lines, later]
          rfl

theorem IsWord.unbroken {text : String} (isWord : IsWord text) : '\n' ∉ text.toList := by
  intro member
  have inWord := isWord.wordlike.inWord _ member
  revert inWord
  decide

end Text

namespace DeclaredVariable

/-- The tokens of a layout, if a location is given. -/
def layoutTokens : Option Int → List Token
  | some n =>
      [.word "layout", .mark .openParenthesis, .word "location", .mark .equals,
        .word (toString n), .mark .closeParenthesis]
  | none => []

/-- The tokens of the line that declares a variable. -/
def tokens (d : DeclaredVariable) : List Token :=
  layoutTokens d.location ++ (if d.flat then [.word "flat"] else [])
    ++ [.word d.role.qualifier.keyword, .word d.type.keyword, .word d.name, .mark .semicolon]

end DeclaredVariable

/-- The tokens of a printed section. -/
def Section.printedTokens (name : Section) (declared : List DeclaredVariable) : List Token :=
  [.word name.keyword, .mark .openBrace] ++ declared.flatMap DeclaredVariable.tokens
    ++ [.mark .closeBrace]

theorem Section.isWord_keyword (name : Section) : Text.IsWord name.keyword := by
  cases name <;> decide +kernel

theorem Section.ofKeyword?_keyword (name : Section)
    : Section.ofKeyword? name.keyword = some name := by
  cases name <;> decide

namespace Token

theorem reading_spaced {text : String} (rest : List Char) (isWord : Text.IsWord text)
    : reading [] (text.toList ++ ' ' :: rest) = .word text :: reading [] rest := by
  rw [reading_word rest isWord (by decide), reading_separator [] rest (by decide)]
  rfl

theorem reading_marked {text : String} {c : Char} {m : Mark} (rest : List Char)
    (isWord : Text.IsWord text) (isMark : Mark.ofChar? c = some m)
    : reading [] (text.toList ++ c :: rest) = .word text :: .mark m :: reading [] rest := by
  have stops : CharClass.isWordChar c = false := by simp [CharClass.isWordChar, isMark]
  rw [reading_word rest isWord stops, reading_mark [] rest isMark]
  rfl

end Token

namespace DeclaredVariable

open Token

theorem reading_layoutText (location : Option Int) (rest : List Char)
    : reading [] ((layoutText location).toList ++ rest)
      = layoutTokens location ++ reading [] rest := by
  cases location with
  | none => simp [layoutText, layoutTokens]
  | some n =>
      have opening : "layout(location = ".toList
          = "layout".toList ++ '(' :: ("location".toList ++ [' ', '=', ' ']) := by
        decide +kernel
      have closing : ") ".toList = [')', ' '] := by decide +kernel
      have layout : Text.IsWord "layout" := by decide +kernel
      have location : Text.IsWord "location" := by decide +kernel
      simp only [layoutText, Option.map_some, Option.getD_some, String.toList_append, opening,
        closing, List.append_assoc, List.cons_append, List.nil_append]
      rw [reading_marked _ layout (m := .openParenthesis) rfl, reading_spaced _ location,
        reading_mark [] _ (m := .equals) rfl, reading_separator [] _ rfl,
        reading_marked _ (Text.isWord_toString n) (m := .closeParenthesis) rfl,
        reading_separator [] _ rfl]
      rfl

theorem reading_flat (flat : Bool) (rest : List Char)
    : reading [] ((if flat then "flat " else "").toList ++ rest)
      = (if flat then [.word "flat"] else []) ++ reading [] rest := by
  cases flat with
  | false => simp
  | true =>
      have parts : "flat ".toList = "flat".toList ++ [' '] := by decide +kernel
      have isWord : Text.IsWord "flat" := by decide +kernel
      simp only [if_true, parts, List.append_assoc, List.singleton_append]
      exact reading_spaced rest isWord

theorem ofLine_line (d : DeclaredVariable) : Token.ofLine d.line.toList = d.tokens := by
  have space : " ".toList = [' '] := by decide +kernel
  have semicolon : ";".toList = [';'] := by decide +kernel
  simp only [ofLine_eq_reading, line, String.toList_append, space, semicolon, List.append_assoc,
    List.cons_append, List.nil_append]
  rw [reading_layoutText, reading_flat, reading_spaced _ d.role.qualifier.isWord_keyword,
    reading_spaced _ d.type.isWord_keyword, reading_marked _ d.word (m := .semicolon) rfl]
  simp only [tokens, List.append_assoc]
  rfl

theorem line_unbroken (d : DeclaredVariable) : '\n' ∉ d.line.toList := by
  have layout : '\n' ∉ (layoutText d.location).toList := by
    cases d.location with
    | none => simp [layoutText]
    | some n =>
        have opening : '\n' ∉ "layout(location = ".toList := by decide +kernel
        have closing : '\n' ∉ ") ".toList := by decide +kernel
        have number := (Text.isWord_toString n).unbroken
        simp only [layoutText, Option.map_some, Option.getD_some, String.toList_append,
          List.mem_append, not_or]
        exact ⟨⟨opening, number⟩, closing⟩
  have flat : '\n' ∉ (if d.flat then "flat " else "").toList := by
    cases d.flat <;> decide +kernel
  have space : '\n' ∉ " ".toList := by decide +kernel
  have semicolon : '\n' ∉ ";".toList := by decide +kernel
  simp only [line, String.toList_append, List.mem_append, layout, flat, space, semicolon,
    d.role.qualifier.isWord_keyword.unbroken, d.type.isWord_keyword.unbroken, d.word.unbroken,
    or_false, not_false_eq_true]

end DeclaredVariable

namespace Section

theorem printedLines_unbroken (name : Section) (declared : List DeclaredVariable)
    : ∀ line ∈ name.printedLines declared, '\n' ∉ line.toList := by
  intro line member
  simp only [printedLines, List.cons_append, List.mem_cons, List.mem_append, List.mem_map,
    List.not_mem_nil, or_false] at member
  rcases member with rfl | ⟨d, _, rfl⟩ | rfl
  · simp [String.toList_append, name.isWord_keyword.unbroken]
  · exact d.line_unbroken
  · decide +kernel

theorem ofLine_printedLines (name : Section) (declared : List DeclaredVariable)
    : ((name.printedLines declared).map fun line => Token.ofLine line.toList).flatten
      = name.printedTokens declared := by
  have opening : Token.ofLine (name.keyword ++ " \x7b").toList
      = [.word name.keyword, .mark .openBrace] := by
    have brace : " \x7b".toList = [' ', '\x7b'] := by decide +kernel
    rw [Token.ofLine_eq_reading, String.toList_append, brace,
      Token.reading_spaced _ name.isWord_keyword]
    rfl
  have closing : Token.ofLine "\x7d".toList = [.mark .closeBrace] := by
    rw [Token.ofLine_eq_reading]
    decide +kernel
  simp only [printedLines, printedTokens, List.cons_append, List.map_cons, List.map_append,
    List.map_map, List.flatten_cons, List.flatten_append, List.map_nil, List.flatten_nil,
    opening, closing, List.flatMap_def, Function.comp_def, DeclaredVariable.ofLine_line]
  simp

end Section

theorem Shader.tokens_print (vertex fragment : List DeclaredVariable)
    : (Text.tokens (print vertex fragment)).flatten
      = Section.vertex.printedTokens vertex ++ Section.fragment.printedTokens fragment := by
  have unbroken : ∀ line ∈ Section.vertex.printedLines vertex
      ++ Section.fragment.printedLines fragment, '\n' ∉ line.toList := by
    intro line member
    rcases List.mem_append.mp member with first | second
    · exact Section.printedLines_unbroken _ _ line first
    · exact Section.printedLines_unbroken _ _ line second
  rw [Text.tokens, print, Text.lines_intercalate (by simp [Section.printedLines]) unbroken,
    List.map_map, List.map_append, List.flatten_append]
  simp only [Function.comp_def, Section.ofLine_printedLines]

end ShaderReflection
