import Mathlib
import ShaderReflection.Files.Tree
import ShaderReflection.Proofs.Scanner.Positions
import ShaderReflection.Proofs.Text.Utf8RoundTrip
import ShaderReflection.Session

/-! Carriage returns in front of line breaks change no build. A scan meets them as characters that
end a word and are not captured; in a file they are gone before the scan.
-/

namespace ShaderReflection

-----------------------------------------------------------------------------------------
-- Texts that differ in the style of their line endings
-----------------------------------------------------------------------------------------

namespace Text

variable {cs ds : List Char}

/-- The second text is the first with carriage returns put in front of some line breaks. -/
inductive Restyles : List Char → List Char → Prop
  | nil : Restyles [] []
  | same {cs ds : List Char} (c : Char) (rest : Restyles cs ds) : Restyles (c :: cs) (c :: ds)
  | carriage {cs ds : List Char} (rest : Restyles cs ds)
    : Restyles ('\n' :: cs) ('\r' :: '\n' :: ds)

namespace Restyles

/-- Both texts start with a slash or neither does. -/
theorem head?_slash (h : Restyles cs ds) : ds.head? = some '/' ↔ cs.head? = some '/' := by
  cases h <;> simp

/-- With all line endings made line breaks the first text is back, by induction along the two
texts. The flag of `consLineEnding` is set exactly in front of a line break.
-/
theorem foldr_consLineEnding (h : Restyles cs ds) (plain : '\r' ∉ cs)
    : ds.foldr consLineEnding (false, []) = (ds.head? == some '\n', cs) := by
  induction h with
  | nil => rfl
  | same c _ ih =>
      obtain ⟨other, notLater⟩ := List.ne_and_not_mem_of_not_mem_cons plain
      rw [List.foldr_cons, ih notLater, consLineEnding, if_neg other.symm]
      rfl
  | carriage _ ih =>
      have notLater := (List.ne_and_not_mem_of_not_mem_cons plain).2
      rw [List.foldr_cons, List.foldr_cons, ih notLater]
      rfl

end Restyles

theorem unifyLineEndings_of_restyles (h : Restyles cs ds) (plain : '\r' ∉ cs)
    : unifyLineEndings ds = cs := by
  rw [unifyLineEndings, h.foldr_consLineEnding plain]

end Text

-----------------------------------------------------------------------------------------
-- A scan takes no notice of them
-----------------------------------------------------------------------------------------

namespace Scanner

variable {cs ds : List Char}

theorem flushWord_flushWord (s : Scanner) : s.flushWord.flushWord = s.flushWord :=
  flushWord_of_empty (Buffer.isEmpty_iff.mpr s.flushWord_spot.word)

/-- A carriage return is not captured. Outside comments it ends a word. -/
theorem feed_carriage (limits : Limits) (s : Scanner) (next : Option Char)
    : s.feed limits '\r' next = .ok (if s.inComment then s else s.flushWord) := by
  have leftOut : s.capture limits '\r' = .ok s := by
    rw [capture_cases]
    cases s.block <;> rfl
  have separates : CharClass.of '\r' next = .separator := rfl
  have noBreak : '\r' ≠ '\n' := by decide
  rw [feed, if_neg noBreak, step, leftOut]
  simp only [classify, separates]
  split <;> rfl

/-- Carriage returns in front of line breaks leave no trace in a scan, at a limit neither. By
induction along the two texts: what a carriage return does, the line break behind it does again.
-/
theorem feedAll_of_restyles (limits : Limits) (h : Text.Restyles cs ds) (s : Scanner)
    : s.feedAll limits ds = s.feedAll limits cs := by
  induction h generalizing s with
  | nil => rfl
  | @same cs ds c rest ih =>
      have sameStep : s.feed limits c ds.head? = s.feed limits c cs.head? := by
        simp only [feed, step_congr_next rest.head?_slash]
      rw [feedAll, feedAll, sameStep]
      cases s.feed limits c cs.head? with
      | error stopped => rfl
      | ok t => exact ih t
  | @carriage cs ds _ ih =>
      have broken (t : Scanner) (next : Option Char)
          : t.feed limits '\n' next = .ok t.flushWord.startLine := rfl
      have again : (if s.inComment then s else s.flushWord).flushWord = s.flushWord := by
        split
        · rfl
        · exact s.flushWord_flushWord
      simp only [feedAll, feed_carriage, broken, again]
      exact ih _

end Scanner

/-- A text and the same text with carriage returns in front of line breaks build alike. -/
theorem build_of_restyles (limits : Limits) {text restyled : String}
    (h : Text.Restyles text.toList restyled.toList)
    : build limits restyled = build limits text := by
  have scanned : ({} : Scanner).scan limits restyled = ({} : Scanner).scan limits text := by
    rw [Scanner.scan, Scanner.scan, Scanner.scanLines_lines, Scanner.scanLines_lines,
      Scanner.feedAll_of_restyles limits h]
  rw [build, build, scanned]

-----------------------------------------------------------------------------------------
-- Files
-----------------------------------------------------------------------------------------

/-- The text of a file is what was encoded in it, with line breaks for line endings. -/
theorem textOfFile_toUTF8 {text restyled : String}
    (h : Text.Restyles text.toList restyled.toList) (plain : '\r' ∉ text.toList)
    : textOfFile restyled.toUTF8.data.toList = .ok text := by
  simp only [textOfFile, Text.decodeUtf8_toUTF8, Text.unifyLineEndings_of_restyles h plain,
    String.ofList_toList]

/-- The outcome of a build of the file that a path leads to, made by a session of its own. -/
def buildFile (limits : Limits) (tree : FileTree) (path : Path) : Except CallError BuildResult :=
  match ({ limits } : Session).perform (.buildFile (tree.readText path)) with
  | (_, .error e) => .error e
  | (session, .ok shader) =>
      .ok {
        shader := shader.getD {}
        error := session.error
        warnings := session.scanner.warnings }

/-- A file that can be read is built like its text, by cases on where the scan ends. -/
theorem buildFile_of_readText (limits : Limits) {tree : FileTree} {path : Path} {text : String}
    (read : tree.readText path = .ok text)
    : buildFile limits tree path = .ok (build limits text) := by
  simp only [buildFile, read, Session.perform, Session.build, build, Bool.false_eq_true, if_false]
  cases ({} : Scanner).scan limits text <;> rfl

/-- The style of line endings is invisible: a text with carriage returns in front of some of its
line breaks has the build of the text without them, and so has a file that holds it.
-/
theorem line_endings_invisible (limits : Limits) {text restyled : String}
    (plain : '\r' ∉ text.toList) (h : Text.Restyles text.toList restyled.toList)
    : build limits restyled = build limits text
      ∧ ∀ (tree : FileTree) (path : Path),
          tree.readBytes path = .ok restyled.toUTF8.data.toList
            → buildFile limits tree path = .ok (build limits text) := by
  refine ⟨build_of_restyles limits h, ?_⟩
  intro tree path held
  apply buildFile_of_readText
  rw [FileTree.readText, held]
  exact textOfFile_toUTF8 h plain

/-- Witness: two of three line breaks behind carriage returns, one of them between two slashes that
are no comment, both limits exactly reached, and a warning with the number of its line.
-/
theorem line_endings_invisible_mixed
    : (build ⟨some 8, some 13⟩
          "vertex\x7bin vec2 é/\n/;\x7dfragment\x7b\nout vec4 c;\n\x7d\x7d").error
        = none
      ∧ (build ⟨some 8, some 13⟩
          "vertex\x7bin vec2 é/\n/;\x7dfragment\x7b\nout vec4 c;\n\x7d\x7d").warnings
        = #[.atLine 2 (.surplusIdentifier "/" "é/"), .atLine 4 .unbalancedBrace]
      ∧ build ⟨some 8, some 13⟩
          "vertex\x7bin vec2 é/\r\n/;\x7dfragment\x7b\nout vec4 c;\r\n\x7d\x7d"
        = build ⟨some 8, some 13⟩
          "vertex\x7bin vec2 é/\n/;\x7dfragment\x7b\nout vec4 c;\n\x7d\x7d"
      ∧ buildFile ⟨some 8, some 13⟩
          (.ofList [("a.glsl", .file
            "vertex\x7bin vec2 é/\r\n/;\x7dfragment\x7b\nout vec4 c;\r\n\x7d\x7d".toUTF8.data.toList)])
          (.ofText "a.glsl")
        = .ok (build ⟨some 8, some 13⟩
          "vertex\x7bin vec2 é/\n/;\x7dfragment\x7b\nout vec4 c;\n\x7d\x7d") := by
  have restyled : Text.Restyles
      "vertex\x7bin vec2 é/\n/;\x7dfragment\x7b\nout vec4 c;\n\x7d\x7d".toList
      "vertex\x7bin vec2 é/\r\n/;\x7dfragment\x7b\nout vec4 c;\r\n\x7d\x7d".toList := by
    simp only [String.reduceToList]
    repeat' constructor
  obtain ⟨asText, asFile⟩ := line_endings_invisible ⟨some 8, some 13⟩ (by decide) restyled
  exact ⟨by decide +kernel, by decide +kernel, asText, asFile _ _ (by cbv)⟩

end ShaderReflection
