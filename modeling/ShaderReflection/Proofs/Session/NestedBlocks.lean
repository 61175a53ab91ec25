import ShaderReflection.Proofs.Machine.Refinement
import ShaderReflection.Proofs.Scanner.NestedBlocks
import ShaderReflection.Proofs.Session.Resting

/-! Blocks nested inside a section do not reach its interface. Wherever a session without limits is
inside a section, such a block leaves what an empty one would.
-/

namespace ShaderReflection.Session

open Scanner (SameButCapture)

/-- Nested blocks never reach the interface. Take any state that a session without limits can reach,
between its operations or behind further characters, inside a section and where statements are read.
A block in which braces and parentheses pair up outside comments, and which is not closed on a line
with a comment, leaves there what an empty block leaves: the declarations, the sources, the depth,
the section, the modes, the pending statement and parameter and the warnings are the same.
-/
theorem nested_block_unseen (operations : List Operation) (before inner : List Char)
    {here : Scanner}
    (reached : (afterAll {} operations).scanner.startLine.feedAll {} before = .ok here)
    (inside : here.currentSection? ≠ none) (normal : here.modes.getLast? = some .statement)
    (code : here.inComment = false)
    (braces : Token.Balanced .openBrace .closeBrace (Token.ofText inner))
    (parentheses : Token.Balanced .openParenthesis .closeParenthesis (Token.ofText inner))
    (noComment : ∀ last ∈ (Text.lines inner).getLast?, ¬['/', '/'] <:+: last)
    : ∃ t u,
        here.feedAll {} ('\x7b' :: inner ++ ['\x7d']) = .ok t
        ∧ here.feedAll {} ['\x7b', '\x7d'] = .ok u
        ∧ (afterAll {} operations).scanner.scanLines {}
            (Text.lines (before ++ ('\x7b' :: inner ++ ['\x7d'])))
          = .ok t
        ∧ (afterAll {} operations).scanner.scanLines {} (Text.lines (before ++ ['\x7b', '\x7d']))
          = .ok u
        ∧ SameButCapture t u := by
  have resting := afterAll_resting {} operations
  have steady := resting.startLine_steady.feedAll (resting.startLine_ready _) reached
  obtain ⟨name, current⟩ := Option.ne_none_iff_exists'.mp inside
  obtain ⟨block, around, _⟩ := Option.map_eq_some_iff.mp current
  obtain ⟨t, u, filled, empty, behindFilled, behindEmpty, same⟩ :=
    steady.feedAll_nested_block around (here.modes_getLast?_iff.mp normal) code braces parentheses
      noComment
  refine ⟨t, u, filled, empty, ?_, ?_, same⟩
  · exact Scanner.scanLines_append_chars (by simp) behindFilled reached filled
  · exact Scanner.scanLines_append_chars (by simp) behindEmpty reached empty

/-- Witness: behind an unfinished declaration, a block that holds a section with a declaration, a
brace in a comment, a block across parameter lists and a declaration without an end. The declaration
in front of it is kept, and nothing else.
-/
theorem nested_block_unseen_section
    : let session := afterAll {}
        [.call (.scanLine "vertex\x7b in vec2 p;"), .uncountedLine "layout(location = 1)"]
      let before := " out vec4 c".toList
      let inner := "fragment \x7b in vec2 q; // \x7d )\n g(x \x7b a=(1 \x7d, b)) \x7d in int n".toList
      ∃ t u,
        session.scanner.scanLines {} (Text.lines (before ++ ('\x7b' :: inner ++ ['\x7d']))) = .ok t
        ∧ session.scanner.scanLines {} (Text.lines (before ++ ['\x7b', '\x7d'])) = .ok u
        ∧ SameButCapture t u
        ∧ (u.declarations.getD .vertex []).map Declaration.name = ["p", "c"] := by
  intro session before inner
  let here := (session.scanner.startLine.feedAll {} before).toOption.getD {}
  have reached : session.scanner.startLine.feedAll {} before = .ok here := by decide +kernel
  have tokens : Token.ofText inner = Token.scanning false [] inner := Token.ofText_eq_scanning inner
  obtain ⟨t, u, _, _, filled, empty, same⟩ :=
    nested_block_unseen _ before inner reached (by decide +kernel) (by decide +kernel)
      (by decide +kernel) (by rw [tokens]; decide +kernel) (by rw [tokens]; decide +kernel)
      (by decide +kernel)
  refine ⟨t, u, filled, empty, same, ?_⟩
  have declared
      : ((session.scanner.scanLines {} (Text.lines (before ++ ['\x7b', '\x7d']))).toOption.map
          fun u => (u.declarations.getD .vertex []).map Declaration.name)
        = some ["p", "c"] := by decide +kernel
  rw [empty] at declared
  exact Option.some.inj declared

end ShaderReflection.Session
