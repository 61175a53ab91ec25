import ShaderReflection.Proofs.OrderedMap.Entries
import ShaderReflection.Proofs.Scanner.ParameterLists
import ShaderReflection.Proofs.Session.NestedBlocks

/-! Parameter lists are read exactly. Wherever a session without limits reads a statement, a list
gives the last keyword the parameters that are written in it, and leaves all else as it was.
-/

namespace ShaderReflection.Session

open Scanner (SameButCapture)

/-- A parameter list is read exactly. Take any state that a session without limits can reach,
between its operations or behind further characters, outside comments, where statements are read and
the last keyword, which may be the pending word, has no parameters. A list of items, over however
many lines it is written, gives that keyword the parameters of its items in their order, of which
each name keeps its first. The other keywords are kept, and so are the modes, the pending parameter,
the depth, the section, the declarations, the sources and the warnings.
-/
theorem parameter_list_read_exactly (operations : List Operation) (before : List Char)
    {here : Scanner}
    (reached : (afterAll {} operations).scanner.startLine.feedAll {} before = .ok here)
    (normal : here.modes.getLast? = some .statement) (code : here.inComment = false)
    {others : List Keyword} {k : Keyword}
    (last : here.pendingStatement.keywords = others ++ [k]) (bare : k.parameters = ∅)
    {items : List ParameterItem} {texts : List (List Char)}
    (written : List.Forall₂ ParameterItem.Written items texts)
    : let list := '(' :: [','].intercalate texts ++ [')']
      ∃ t parameters,
        here.feedAll {} list = .ok t
        ∧ (afterAll {} operations).scanner.scanLines {} (Text.lines (before ++ list)) = .ok t
        ∧ t.statement.keywords = others ++ [{ k with parameters }]
        ∧ parameters.entries
          = (items.filterMap ParameterItem.parameter?).eraseDupsBy (fun e f => e.1 == f.1)
        ∧ SameButCapture t { here with word := {}, statement := t.statement } := by
  intro list
  have resting := afterAll_resting {} operations
  have steady := resting.startLine_steady.feedAll (resting.startLine_ready _) reached
  have outside := here.modes_getLast?_iff.mp normal
  obtain ⟨t, fed, given, same⟩ :=
    Scanner.feedAll_parameterList outside (steady.coherent.idle outside) code written
  have idle : t.word = {} := congrArg Scanner.word same.others
  have keywords :=
    Statement.keywords_annotateAll last (items.filterMap ParameterItem.parameter?)
  rw [← given] at keywords
  refine ⟨t, _, fed, ?_, keywords, ?_, same⟩
  · exact Scanner.scanLines_append_chars (by simp [list]) idle reached fed
  · rw [bare, OrderedMap.entries_foldl_insertIfNew]
    simp [OrderedMap.keys]

/-- Witness: a list over three lines behind a pending word, with an item left blank, a name that is
written twice, and a value left out.
-/
theorem parameter_list_read_exactly_wrapped
    : let session := afterAll {}
        [.call (.scanLine "vertex\x7b in vec2 p;"), .uncountedLine "layout(location = 1) out"]
      let before := " vec4 layout".toList
      let list := "(set\n = 1 ,, flat\t, set=2,\r\nbinding =)".toList
      ∃ t,
        session.scanner.scanLines {} (Text.lines (before ++ list)) = .ok t
        ∧ t.statement.keywords.map (fun k => (k.word, k.parameters.entries))
          = [("layout", [("location", "1")]), ("out", []), ("vec4", []),
            ("layout", [("set", "1"), ("flat", ""), ("binding", "")])] := by
  intro session before list
  let here := (session.scanner.startLine.feedAll {} before).toOption.getD {}
  have reached : session.scanner.startLine.feedAll {} before = .ok here := by decide +kernel
  have last
      : here.pendingStatement.keywords = here.statement.keywords ++ [{ word := "layout" }] := by
    decide +kernel
  have padded (word : String) (isWord : Text.IsWord word) (left right : List Char)
      (gaps : Text.IsGap left ∧ Text.IsGap right)
      : Text.IsPadded word (left ++ word.toList ++ right) :=
    ⟨isWord, left, right, gaps.1, gaps.2, rfl⟩
  have written
      : List.Forall₂ ParameterItem.Written
          [.assigned "set" (some "1"), .blank, .named "flat", .assigned "set" (some "2"),
            .assigned "binding" none]
          ["set\n = 1 ".toList, [], " flat\t".toList, " set=2".toList, "\r\nbinding =".toList] :=
    .cons
      (.valued (padded "set" (by decide) [] ['\n', ' '] (by decide))
        (padded "1" (by decide) [' '] [' '] (by decide)))
      (.cons (.blank (by decide))
        (.cons (.named (padded "flat" (by decide) [' '] ['\t'] (by decide)))
          (.cons
            (.valued (padded "set" (by decide) [' '] [] (by decide))
              (padded "2" (by decide) [] [] (by decide)))
            (.cons
              (.unvalued (padded "binding" (by decide) ['\r', '\n'] [' '] (by decide)) (by decide))
              .nil))))
  obtain ⟨t, parameters, _, scanned, keywords, entries, _⟩ :=
    parameter_list_read_exactly _ before reached (by decide +kernel) (by decide +kernel) last rfl
      written
  refine ⟨t, scanned, ?_⟩
  have others : here.statement.keywords.map (fun k => (k.word, k.parameters.entries))
      = [("layout", [("location", "1")]), ("out", []), ("vec4", [])] := by decide +kernel
  rw [keywords, List.map_append, others, List.map_singleton, entries]
  rfl

end ShaderReflection.Session
