import ShaderReflection.Proofs.Scanner.Continuation
import ShaderReflection.Proofs.Stage.Interface

/-! Texts joined by line breaks. If each of them leaves nothing open or pending, a scan collects
from the joined text what it collects from each of them, one after another. So a build does not
depend on texts that open no section, nor on the order of neighbours that open different sections.
-/

namespace ShaderReflection.Scanner

variable {base s t : Scanner} {x y : String} {xs ys : List String}

-----------------------------------------------------------------------------------------
-- A text behind another one
-----------------------------------------------------------------------------------------

/-- Nothing is open or pending: no brace, no block, no parameter list, no statement. -/
structure Clear (s : Scanner) : Prop where
  depth : s.depth = 0
  block : s.block = none
  openLists : s.openLists = 0
  statement : s.statement = {}

instance (s : Scanner) : Decidable s.Clear :=
  decidable_of_iff (s.depth = 0 ∧ s.block = none ∧ s.openLists = 0 ∧ s.statement = {})
    ⟨fun ⟨depth, block, openLists, statement⟩ => ⟨depth, block, openLists, statement⟩,
      fun clear => ⟨clear.depth, clear.block, clear.openLists, clear.statement⟩⟩

/-- A text that stands for itself: its scan ends with nothing open or pending. -/
def Neutral (text : String) : Prop :=
  (ofText text).Clear

instance (text : String) : Decidable (Neutral text) :=
  inferInstanceAs (Decidable (ofText text).Clear)

theorem Continues.feedAll (h : Continues base t s) (cs : List Char)
    : ∃ there here,
        t.feedAll {} cs = .ok there ∧ s.feedAll {} cs = .ok here ∧ Continues base there here := by
  induction cs generalizing s t with
  | nil => exact ⟨t, s, rfl, rfl, h⟩
  | cons c rest ih =>
      simp only [Scanner.feedAll, feed_unlimited]
      exact ih (h.advance c rest.head?)

theorem Continues.scanLines (h : Continues base t.startLine s.startLine) (cs : List Char)
    : ∃ there here,
        t.scanLines {} (Text.lines cs) = .ok there
        ∧ s.scanLines {} (Text.lines cs) = .ok here
        ∧ Continues base there here := by
  obtain ⟨there, here, fedThere, fedHere, continues⟩ := h.feedAll cs
  refine ⟨there.flushWord, here.flushWord, ?_, ?_, continues.flushWord⟩
  · rw [scanLines_lines, fedThere]
    rfl
  · rw [scanLines_lines, fedHere]
    rfl

theorem Continues.finish (h : Continues base t s) : Continues base t.finish s.finish :=
  h.flushWord.withWarnings _ _

theorem ofText_of_scanLines (scanned : ({} : Scanner).scanLines {} (Text.lines x.toList) = .ok s)
    : ofText x = s.finish := by
  have whole := scan_unlimited x
  rw [scan, scanned] at whole
  exact (Except.ok.inj whole).symm

theorem ofText_resting (text : String) : (ofText text).Resting {} := by
  have outcome := (resting_start {}).scan text
  rw [scan_unlimited] at outcome
  exact outcome

theorem Clear.continues (clear : s.Clear) (word : s.word = {}) (parameter : s.parameter = {})
    : Continues s (startLine {}) s.startLine where
  depth := clear.depth
  block := clear.block
  openLists := clear.openLists
  word := word
  statement := clear.statement
  parameter := parameter
  inComment := rfl
  entered := fun _ inside => by cases inside
  declarations := fun _ => (List.append_nil _).symm
  sources := fun _ => (Text.merge_none _).symm

/-- A text that leaves nothing open or pending is scanned before another one as on its own, and so
is the other one.
-/
theorem Neutral.continues (neutral : Neutral x) (y : String)
    : Continues (ofText x) (ofText y) (ofText (x ++ "\n" ++ y)) := by
  obtain ⟨s, scanned⟩ := scanLines_unlimited {} (Text.lines x.toList)
  obtain ⟨_, idle⟩ := scanLines_agree scanned rfl (.refl id {})
  have ended : ofText x = { s with warnings := s.warnings ++ s.closingWarnings } := by
    rw [ofText_of_scanLines scanned, finish, flushWord_of_empty (Buffer.isEmpty_iff.mpr idle)]
  have parameter := (ofText_resting x).coherent.idle neutral.openLists
  rw [ended] at parameter
  rw [Neutral, ended] at neutral
  have start : Continues s (startLine {}) s.startLine :=
    Clear.continues ⟨neutral.depth, neutral.block, neutral.openLists, neutral.statement⟩ idle
      parameter
  obtain ⟨there, here, alone, behind, continues⟩ := start.scanLines y.toList
  have cut : Text.lines (x ++ "\n" ++ y).toList = Text.lines x.toList ++ Text.lines y.toList := by
    simpa [Text.lines] using Text.split_append '\n' x.toList y.toList
  have both : ({} : Scanner).scanLines {} (Text.lines (x ++ "\n" ++ y).toList) = .ok here := by
    rw [cut, scanLines_append, scanned]
    exact behind
  rw [ofText_of_scanLines alone, ofText_of_scanLines both, ended]
  exact { continues.finish with }

-----------------------------------------------------------------------------------------
-- Any number of texts
-----------------------------------------------------------------------------------------

/-- What is collected from joined texts is what each of them gives, in their order. By induction
along the texts: the first one is followed by the others joined.
-/
theorem collected_joined (neutral : ∀ x ∈ xs, Neutral x) (name : Section)
    : (ofText ("\n".intercalate xs)).declarations.getD name []
        = xs.flatMap (fun x => (ofText x).declarations.getD name [])
      ∧ (ofText ("\n".intercalate xs)).sources.get? name
        = Text.joined (xs.filterMap fun x => (ofText x).sources.get? name) := by
  induction xs with
  | nil => exact ⟨rfl, rfl⟩
  | cons x rest ih =>
      have first : Text.joined ([x].filterMap fun x => (ofText x).sources.get? name)
          = (ofText x).sources.get? name := by
        cases found : (ofText x).sources.get? name <;> simp [found, Text.joined]
      cases rest with
      | nil => exact ⟨by simp, by simpa using first.symm⟩
      | cons y more =>
          have others : ∀ z ∈ y :: more, Neutral z := fun z member =>
            neutral z (List.mem_cons_of_mem x member)
          obtain ⟨declarations, sources⟩ := ih others
          have continues := (neutral x List.mem_cons_self).continues ("\n".intercalate (y :: more))
          rw [← String.intercalate_cons_cons] at continues
          constructor
          · rw [continues.declarations, declarations]
            rfl
          · rw [continues.sources, sources, ← first, ← Text.joined_append, ← List.filterMap_append]
            rfl

/-- The sections that a text opens. -/
def opened (text : String) : List Section :=
  (ofText text).declarations.keys

/-- A section that a text does not open gets nothing from it. -/
theorem nothing_of_not_opened {name : Section} (absent : name ∉ opened x)
    : (ofText x).declarations.getD name [] = [] ∧ (ofText x).sources.get? name = none := by
  constructor
  · rw [OrderedMap.getD, (OrderedMap.get?_eq_none_iff _ name).mpr absent]
    rfl
  · apply (OrderedMap.get?_eq_none_iff _ name).mpr
    intro closed
    exact absent ((ofText_resting x).coherent.closed name closed)

/-- Lists of texts where one comes from the other when texts that open no section are dropped and
neighbours that open different sections are swapped.
-/
inductive Rearranged : List String → List String → Prop where
  | nil : Rearranged [] []
  | cons (x : String) {xs ys : List String} (rest : Rearranged xs ys)
    : Rearranged (x :: xs) (x :: ys)
  | drop {x : String} (idle : opened x = []) {xs ys : List String} (rest : Rearranged xs ys)
    : Rearranged (x :: xs) ys
  | swap {x y : String} (apart : ∀ name ∈ opened x, name ∉ opened y) (rest : List String)
    : Rearranged (x :: y :: rest) (y :: x :: rest)
  | trans {xs ys zs : List String} (first : Rearranged xs ys) (second : Rearranged ys zs)
    : Rearranged xs zs

theorem Rearranged.subset (h : Rearranged xs ys) : ys ⊆ xs := by
  induction h with
  | nil => exact List.Subset.refl []
  | cons x rest ih => exact List.cons_subset_cons x ih
  | drop idle rest ih => exact List.subset_cons_of_subset _ ih
  | swap apart rest => exact (List.Perm.swap _ _ rest).subset
  | trans first second ihFirst ihSecond => exact List.Subset.trans ihSecond ihFirst

/-- Each section gets the same from rearranged texts: of two neighbours that open different
sections, one at most gives it anything.
-/
theorem Rearranged.collected (h : Rearranged xs ys) (name : Section)
    : xs.flatMap (fun x => (ofText x).declarations.getD name [])
        = ys.flatMap (fun x => (ofText x).declarations.getD name [])
      ∧ xs.filterMap (fun x => (ofText x).sources.get? name)
        = ys.filterMap fun x => (ofText x).sources.get? name := by
  induction h with
  | nil => exact ⟨rfl, rfl⟩
  | cons x rest ih => simp only [List.flatMap_cons, List.filterMap_cons, ih, and_self]
  | @drop x idle xs ys rest ih =>
      have absent : name ∉ opened x := idle ▸ List.not_mem_nil
      obtain ⟨declarations, sources⟩ := nothing_of_not_opened absent
      simp only [List.flatMap_cons, List.filterMap_cons, declarations, sources, List.nil_append, ih,
        and_self]
  | @swap x y apart rest =>
      by_cases fromFirst : name ∈ opened x
      · obtain ⟨declarations, sources⟩ := nothing_of_not_opened (apart name fromFirst)
        simp [List.filterMap_cons, declarations, sources]
      · obtain ⟨declarations, sources⟩ := nothing_of_not_opened fromFirst
        simp [List.filterMap_cons, declarations, sources]
  | trans first second ihFirst ihSecond =>
      exact ⟨ihFirst.1.trans ihSecond.1, ihFirst.2.trans ihSecond.2⟩

/-- Scans whose sections assemble to the same stages build alike, if the sources are the same. -/
theorem result_congr_of_assemble (stages : s.sections.assemble = t.sections.assemble)
    (sources : ∀ name, s.sources.get? name = t.sources.get? name)
    : s.result.shader = t.result.shader ∧ s.result.error = t.result.error := by
  have common : s.sources.getD .common "" = t.sources.getD .common "" := by
    simp only [OrderedMap.getD, sources]
  simp only [result, Sections.parse, stages, common]
  cases t.sections.assemble.validate <;> exact ⟨rfl, rfl⟩

/-- Scans that give each section the same source and the same declarations build alike. -/
theorem result_congr
    (declarations : ∀ name, s.declarations.getD name [] = t.declarations.getD name [])
    (sources : ∀ name, s.sources.get? name = t.sources.get? name)
    : s.result.shader = t.result.shader ∧ s.result.error = t.result.error := by
  refine result_congr_of_assemble ?_ sources
  simp only [Sections.assemble, Sections.stages, sections, declarations, sources]

/-- Texts that leave nothing open or pending are scanned apart, also when they are joined: each
section gets the declarations that each text gives it, and the sources that each text gives it. So
the same shader is built, or the same error found, when texts that open no section are dropped and
when neighbours that open different sections are swapped.
-/
theorem neutral_texts_scanned_apart (xs : List String) (neutral : ∀ x ∈ xs, Neutral x)
    : (∀ text, ({} : Scanner).scan {} text = .ok (ofText text))
      ∧ (∀ name,
          (ofText ("\n".intercalate xs)).declarations.getD name []
          = xs.flatMap fun x => (ofText x).declarations.getD name [])
      ∧ (∀ name,
          (ofText ("\n".intercalate xs)).sources.get? name
          = Text.joined (xs.filterMap fun x => (ofText x).sources.get? name))
      ∧ ∀ ys,
          Rearranged xs ys
          → (build {} ("\n".intercalate xs)).shader = (build {} ("\n".intercalate ys)).shader
            ∧ (build {} ("\n".intercalate xs)).error = (build {} ("\n".intercalate ys)).error := by
  refine ⟨scan_unlimited, fun name => (collected_joined neutral name).1,
    fun name => (collected_joined neutral name).2, ?_⟩
  intro ys rearranged
  have others : ∀ y ∈ ys, Neutral y := fun y member => neutral y (rearranged.subset member)
  rw [build_of_scan (scan_unlimited _), build_of_scan (scan_unlimited _)]
  apply result_congr
  · intro name
    rw [(collected_joined neutral name).1, (collected_joined others name).1,
      (rearranged.collected name).1]
  · intro name
    rw [(collected_joined neutral name).2, (collected_joined others name).2,
      (rearranged.collected name).2]

/-- Witness: five texts, of which two open no section and are dropped and two open different
sections and are swapped, and the last opens one of these sections again.
-/
theorem neutral_texts_scanned_apart_swapped
    : let junk := "struct S \x7b (float) \x7d ; // \x7b"
      let vertex := "vertex \x7bin vec3 a;\x7d"
      let fragment := "fragment \x7bout vec4 c;\x7d"
      let more := "vertex\x7bin vec2 b;\x7d"
      let xs := [junk, vertex, fragment, junk, more]
      let ys := [fragment, vertex, more]
      (∀ x ∈ xs, Neutral x)
      ∧ (ofText ("\n".intercalate xs)).sources.get? .vertex = some "in vec3 a; in vec2 b;"
      ∧ (build {} ("\n".intercalate xs)).error = none
      ∧ (build {} ("\n".intercalate ys)).error = none
      ∧ (build {} ("\n".intercalate xs)).shader = (build {} ("\n".intercalate ys)).shader := by
  intro junk vertex fragment more xs ys
  have neutral : ∀ x ∈ xs, Neutral x := by decide +kernel
  have idle : opened junk = [] := by decide +kernel
  have apart : ∀ name ∈ opened vertex, name ∉ opened fragment := by decide +kernel
  have rearranged : Rearranged xs ys :=
    .drop idle (.trans (.swap apart [junk, more])
      (.cons fragment (.cons vertex (.drop idle (.cons more .nil)))))
  obtain ⟨_, _, sources, builds⟩ := neutral_texts_scanned_apart xs neutral
  obtain ⟨shader, error⟩ := builds ys rearranged
  have succeeds : (build {} ("\n".intercalate xs)).error = none := by decide +kernel
  refine ⟨neutral, ?_, succeeds, error.symm.trans succeeds, shader⟩
  rw [sources]
  decide +kernel

end ShaderReflection.Scanner
