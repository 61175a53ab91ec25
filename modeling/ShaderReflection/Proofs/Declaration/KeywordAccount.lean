import ShaderReflection.Proofs.Build.DeclaredLocations
import ShaderReflection.Proofs.Session.Resting

/-! What becomes of each keyword of a statement that is read as a declaration: one is the type, and
each other one is a qualifier, the identifier or surplus. Only the order of the qualifiers and the
order of the other keywords matter, not how the two are mixed.
-/

namespace ShaderReflection

/-- Whether a keyword names a qualifier. -/
def Keyword.qualifies (k : Keyword) : Bool :=
  (Qualifier.ofKeyword? k.word).isSome

/-- Whether a finding is about a further word that could have been the identifier. -/
def Finding.isSurplus : Finding → Bool
  | surplusIdentifier _ _ => true
  | _ => false

namespace Declaration

variable {keywords others : List Keyword} {type : DataType}

-----------------------------------------------------------------------------------------
-- The first type
-----------------------------------------------------------------------------------------

theorem takeType?_eq_none_iff
    : takeType? keywords = none ↔ ∀ k ∈ keywords, DataType.ofKeyword? k.word = none := by
  induction keywords with
  | nil => simp [takeType?]
  | cons k rest ih =>
      rw [takeType?, List.forall_mem_cons]
      cases named : DataType.ofKeyword? k.word with
      | some found => simp
      | none => simp [ih]

theorem not_qualifies_of_type {k : Keyword} (typed : DataType.ofKeyword? k.word = some type)
    : k.qualifies = false := by
  simp [Keyword.qualifies, ofKeyword?_eq_none_of_type typed]

-----------------------------------------------------------------------------------------
-- Qualifiers and other keywords apart
-----------------------------------------------------------------------------------------

/-- The keywords of one statement are those of the other, the qualifiers in the same order and all
others in the same order. -/
structure SameOrders (first second : List Keyword) : Prop where
  qualifiers : first.filter Keyword.qualifies = second.filter Keyword.qualifies
  others : first.filter (!·.qualifies) = second.filter (!·.qualifies)

theorem SameOrders.mem {first second : List Keyword} (h : SameOrders first second) {k : Keyword}
    (member : k ∈ first)
    : k ∈ second := by
  cases qualifies : k.qualifies with
  | true =>
      have among : k ∈ first.filter Keyword.qualifies := List.mem_filter.mpr ⟨member, qualifies⟩
      exact List.mem_of_mem_filter (h.qualifiers ▸ among)
  | false =>
      have among : k ∈ first.filter (!·.qualifies) :=
        List.mem_filter.mpr ⟨member, by simp [qualifies]⟩
      exact List.mem_of_mem_filter (h.others ▸ among)

/-- The type is the first one among the keywords that are no qualifiers, and taking it out leaves
the qualifiers alone. By induction along the statement.
-/
theorem takeType?_filter (keywords : List Keyword)
    : takeType? (keywords.filter (!·.qualifies))
      = (takeType? keywords).map fun found => (found.1, found.2.filter (!·.qualifies)) := by
  induction keywords with
  | nil => rfl
  | cons k rest ih =>
      cases qualifies : k.qualifies with
      | true =>
          have untyped : DataType.ofKeyword? k.word = none := by
            cases typed : DataType.ofKeyword? k.word with
            | none => rfl
            | some type =>
                rw [not_qualifies_of_type typed] at qualifies
                cases qualifies
          rw [List.filter_cons_of_neg (by simp [qualifies]), ih, takeType?, untyped]
          simp [Function.comp_def, qualifies]
      | false =>
          rw [List.filter_cons_of_pos (by simp [qualifies]), takeType?, takeType?, ih]
          cases DataType.ofKeyword? k.word with
          | some type => rfl
          | none => simp [Function.comp_def, qualifies]

theorem qualifiersOf_filter (keywords : List Keyword)
    : qualifiersOf (keywords.filter Keyword.qualifies) = qualifiersOf keywords := by
  rw [qualifiersOf, List.filterMap_filter]
  apply List.filterMap_congr
  intro k _
  cases named : Qualifier.ofKeyword? k.word <;> simp [Keyword.qualifies, named]

theorem namesOf_filter (keywords : List Keyword)
    : namesOf (keywords.filter (!·.qualifies)) = namesOf keywords := by
  have same (k : Keyword) : (!k.qualifies) = (Qualifier.ofKeyword? k.word).isNone := by
    simp [Keyword.qualifies]
  simp only [namesOf, same, List.filter_filter, Bool.and_self]

theorem parametersOf_filter (keywords : List Keyword)
    : parametersOf (keywords.filter Keyword.qualifies) = parametersOf keywords := by
  rw [parametersOf, List.foldl_filter, parametersOf]
  congr 1
  funext found k
  cases named : Qualifier.ofKeyword? k.word <;> simp [Keyword.qualifies, named]

/-- Taking the type out leaves the same qualifiers. -/
theorem filter_qualifies_of_takeType? (taken : takeType? keywords = some (type, others))
    : others.filter Keyword.qualifies = keywords.filter Keyword.qualifies := by
  obtain ⟨before, k, behind, rfl, rfl, _, typed⟩ := takeType?_split taken
  rw [List.filter_append, List.filter_append,
    List.filter_cons_of_neg (by simp [not_qualifies_of_type typed])]

/-- What a statement is read as depends on its qualifiers and on its other keywords, each in their
own order.
-/
theorem read?_eq_apart (keywords : List Keyword)
    : read? keywords
      = (takeType? ((beforeInitializer keywords).filter (!·.qualifies))).map fun found =>
          let qualifiers := (beforeInitializer keywords).filter Keyword.qualifies
          let names := (namesOf found.2).dropWhile (· = "")
          { declaration := {
              name := names.headD ""
              type := found.1
              qualifiers := qualifiersOf qualifiers
              parameters := parametersOf qualifiers }
            surplus := names.tail } := by
  rw [takeType?_filter, read?]
  cases taken : takeType? (beforeInitializer keywords) with
  | none => rfl
  | some found =>
      obtain ⟨type, others⟩ := found
      simp only [Option.map_some, namesOf_filter, ← filter_qualifies_of_takeType? taken,
        qualifiersOf_filter, parametersOf_filter]

/-- The initializer stays where it is when the keywords before it are reordered. -/
theorem beforeInitializer_reordered {reordered : List Keyword}
    (same : SameOrders reordered (beforeInitializer keywords))
    : beforeInitializer (reordered ++ keywords.dropWhile fun k => k.word ≠ "=") = reordered := by
  have noEquals : ∀ k ∈ reordered, decide (k.word ≠ "=") = true := fun k member =>
    List.all_eq_true.mp List.all_takeWhile k (same.mem member)
  have initializer := List.head?_dropWhile_not (fun k : Keyword => decide (k.word ≠ "=")) keywords
  rw [beforeInitializer, List.takeWhile_append_of_pos noEquals]
  cases behind : keywords.dropWhile fun k => decide (k.word ≠ "=") with
  | nil => simp
  | cons k rest =>
      rw [behind] at initializer
      rw [List.takeWhile_cons_of_neg (by simpa using initializer), List.append_nil]

theorem read?_reordered {reordered : List Keyword}
    (same : SameOrders reordered (beforeInitializer keywords))
    : read? (reordered ++ keywords.dropWhile fun k => k.word ≠ "=") = read? keywords := by
  simp only [read?_eq_apart, beforeInitializer_reordered same, same.qualifiers, same.others]

-----------------------------------------------------------------------------------------
-- Each keyword accounted for
-----------------------------------------------------------------------------------------

/-- A declaration and the findings at it account for keywords, given the names among them: the
qualifiers are those that name one, the identifier is the first name, and each further name is a
finding of its own. A missing identifier is a finding if there are qualifiers.
-/
structure Accounts (keywords : List Keyword) (names : List String) (d : Declaration)
    (findings : List Finding)
    : Prop where
  qualifiers : d.qualifiers = keywords.filterMap fun k => Qualifier.ofKeyword? k.word
  name : d.name = names.headD ""
  findings
    : findings
      = (names.tail.map fun found => .surplusIdentifier found d.name)
        ++ if d.qualifiers ≠ [] ∧ names = [] then [.missingIdentifier d.type] else []

theorem length_eq_qualifiersOf_add_namesOf (keywords : List Keyword)
    : keywords.length = (qualifiersOf keywords).length + (namesOf keywords).length := by
  induction keywords with
  | nil => rfl
  | cons k rest ih =>
      simp only [qualifiersOf, namesOf, List.length_map] at ih ⊢
      cases named : Qualifier.ofKeyword? k.word <;> simp [named, ih] <;> omega

/-- If no name is empty, each keyword is a qualifier, the identifier or a surplus identifier. -/
theorem Accounts.length {d : Declaration} {findings : List Finding}
    (h : Accounts keywords (namesOf keywords) d findings)
    (given : ∀ name ∈ namesOf keywords, name ≠ "")
    : keywords.length
      = d.qualifiers.length + (if d.name = "" then 0 else 1) + findings.countP Finding.isSurplus := by
  have surplus : findings.countP Finding.isSurplus = (namesOf keywords).tail.length := by
    have missing (condition : Prop) [Decidable condition]
        : (if condition then [Finding.missingIdentifier d.type] else []).countP Finding.isSurplus
          = 0 := by
      split <;> rfl
    rw [h.findings, List.countP_append, List.countP_map, missing, Nat.add_zero]
    exact List.countP_eq_length.mpr fun word _ => rfl
  rw [length_eq_qualifiersOf_add_namesOf, surplus, h.name, h.qualifiers, qualifiersOf]
  cases names : namesOf keywords with
  | nil => simp
  | cons first rest =>
      have nonempty : first ≠ "" := given first (by simp [names])
      simp only [List.headD_cons, nonempty, if_false, List.length_cons, List.tail_cons]
      omega

/-- Among keywords that are not empty no name is passed over, so that the type, the qualifiers, the
identifier and the surplus identifiers are all there is.
-/
theorem Accounts.of_nonempty {before behind : List Keyword} {k : Keyword} {d : Declaration}
    {findings : List Finding}
    (h : Accounts (before ++ behind) ((namesOf (before ++ behind)).dropWhile (· = "")) d findings)
    (nonempty : ∀ other ∈ before ++ k :: behind, other.word ≠ "")
    : (namesOf (before ++ behind)).dropWhile (· = "") = namesOf (before ++ behind)
      ∧ (before ++ k :: behind).length
        = 1 + d.qualifiers.length + (if d.name = "" then 0 else 1)
          + findings.countP Finding.isSurplus := by
  have given : ∀ name ∈ namesOf (before ++ behind), name ≠ "" := by
    intro name member
    obtain ⟨other, among, rfl⟩ := List.mem_map.mp member
    rcases List.mem_append.mp (List.mem_of_mem_filter among) with early | late
    · exact nonempty other (List.mem_append_left _ early)
    · exact nonempty other (List.mem_append_right _ (List.mem_cons_of_mem k late))
  have whole : (namesOf (before ++ behind)).dropWhile (· = "") = namesOf (before ++ behind) := by
    cases names : namesOf (before ++ behind) with
    | nil => rfl
    | cons first rest => exact List.dropWhile_cons_of_neg (by simpa using given first (by simp [names]))
  refine ⟨whole, ?_⟩
  rw [whole] at h
  have length := h.length given
  simp only [List.length_append, List.length_cons] at length ⊢
  omega

theorem headD_dropWhile_eq_empty_iff (words : List String)
    : (words.dropWhile (· = "")).headD "" = "" ↔ words.dropWhile (· = "") = [] := by
  have first := List.head?_dropWhile_not (fun word : String => decide (word = "")) words
  cases names : words.dropWhile (· = "") with
  | nil => simp
  | cons name rest =>
      rw [names] at first
      simpa using first

/-- What is read from a statement accounts for its keywords beside the type. The names are the words
that are no qualifiers, from the first one on that is not empty.
-/
theorem accounts_of_takeType? (taken : takeType? (beforeInitializer keywords) = some (type, others))
    : ∃ reading,
        read? keywords = some reading
        ∧ reading.declaration.type = type
        ∧ Accounts others ((namesOf others).dropWhile (· = "")) reading.declaration
            (Scanner.findingsOf reading) := by
  refine ⟨_, by rw [read?, taken], rfl, rfl, rfl, ?_⟩
  have nameless := headD_dropWhile_eq_empty_iff (namesOf others)
  simp only [Scanner.findingsOf, lacksName, nameless, ne_eq, Bool.and_eq_true, Bool.not_eq_true',
    List.isEmpty_eq_false_iff, decide_eq_true_eq]

end Declaration

namespace Scanner

open Declaration

variable {s : Scanner} {keywords : List Keyword}

/-- Reads a statement as a declaration and reports what is noticed. -/
def extract (s : Scanner) (keywords : List Keyword) : Option Declaration × Scanner :=
  match read? keywords with
  | none => (none, s)
  | some reading => (some reading.declaration, s.reportAll (findingsOf reading))

/-- A statement directly inside a section is read, and the declaration is kept if there is one. -/
theorem interpret_eq_extract (s : Scanner) (name : Section) (keywords : List Keyword)
    : s.interpret name keywords
      = match s.extract keywords with
        | (none, t) => t
        | (some d, t) => t.keep name d := by
  rw [interpret, extract]
  cases read? keywords <;> rfl

theorem extract_eq_none_iff
    : s.extract keywords = (none, s)
      ↔ ∀ k ∈ beforeInitializer keywords, DataType.ofKeyword? k.word = none := by
  rw [← takeType?_eq_none_iff, extract, read?]
  cases takeType? (beforeInitializer keywords) <;> simp

/-- A statement with a type is read as a declaration that, together with the warnings, accounts for
all other keywords before the initializer.
-/
theorem extract_of_typed (typed : ∃ k ∈ beforeInitializer keywords, DataType.ofKeyword? k.word ≠ none)
    : ∃ before k behind d findings,
        beforeInitializer keywords = before ++ k :: behind
        ∧ (∀ earlier ∈ before, DataType.ofKeyword? earlier.word = none)
        ∧ DataType.ofKeyword? k.word = some d.type
        ∧ Accounts (before ++ behind) ((namesOf (before ++ behind)).dropWhile (· = "")) d findings
        ∧ s.extract keywords
          = (some d,
              { s with warnings := s.warnings ++ findings.map (Warning.atLine s.lineNumber) }) := by
  cases taken : takeType? (beforeInitializer keywords) with
  | none =>
      obtain ⟨k, member, named⟩ := typed
      exact absurd (takeType?_eq_none_iff.mp taken k member) named
  | some found =>
      obtain ⟨type, others⟩ := found
      obtain ⟨before, k, behind, line, rfl, untyped, isType⟩ := takeType?_split taken
      obtain ⟨reading, read, rfl, accounts⟩ := accounts_of_takeType? taken
      refine ⟨before, k, behind, reading.declaration, findingsOf reading, line, untyped, isType,
        accounts, ?_⟩
      simp only [extract, read, reportAll_eq]

/-- Extraction accounts for every keyword of a statement before its initializer. Without a type
there is no declaration and no warning. Otherwise the first type is the type of the declaration, and
of the other keywords each is a qualifier, the identifier, or named in a warning of its own; a
missing identifier is warned of where there are qualifiers. Empty words in front of the identifier
would be passed over, but no statement of a session has an empty word. However qualifiers are mixed
with other keywords, the declaration and the warnings are the same. What a scan takes in at the end
of a statement inside a section is what is extracted, and the declaration is kept if it has a
qualifier.
-/
theorem extract_accounts_for_keywords (s : Scanner) (keywords : List Keyword)
    : let line := beforeInitializer keywords
      (s.extract keywords = (none, s) ↔ ∀ k ∈ line, DataType.ofKeyword? k.word = none)
      ∧ ((∃ k ∈ line, DataType.ofKeyword? k.word ≠ none)
          → ∃ before k behind d names findings,
              line = before ++ k :: behind
              ∧ (∀ earlier ∈ before, DataType.ofKeyword? earlier.word = none)
              ∧ DataType.ofKeyword? k.word = some d.type
              ∧ Accounts (before ++ behind) names d findings
              ∧ s.extract keywords
                = (some d,
                    { s with
                      warnings := s.warnings ++ findings.map (Warning.atLine s.lineNumber) })
              ∧ names = (namesOf (before ++ behind)).dropWhile (· = "")
              ∧ ((∀ k ∈ line, k.word ≠ "")
                  → names = namesOf (before ++ behind)
                    ∧ line.length
                      = 1 + d.qualifiers.length + (if d.name = "" then 0 else 1)
                        + findings.countP Finding.isSurplus))
      ∧ (∀ reordered, SameOrders reordered line
          → s.extract (reordered ++ keywords.dropWhile fun k => k.word ≠ "=") = s.extract keywords)
      ∧ (∀ name,
          s.interpret name keywords
            = match s.extract keywords with
              | (none, t) => t
              | (some d, t) => t.keep name d)
      ∧ ∀ limits operations,
          ∀ k ∈ (Session.afterAll limits operations).scanner.statement.keywords, k.word ≠ "" := by
  intro line
  refine ⟨extract_eq_none_iff, ?_, ?_, fun name => s.interpret_eq_extract name keywords, ?_⟩
  · intro typed
    obtain ⟨before, k, behind, d, findings, split, untyped, isType, accounts, extracted⟩ :=
      extract_of_typed (s := s) typed
    refine ⟨before, k, behind, d, _, findings, split, untyped, isType, accounts, extracted, rfl, ?_⟩
    intro nonempty
    have split : line = before ++ k :: behind := split
    rw [split] at nonempty ⊢
    exact accounts.of_nonempty nonempty
  · intro reordered same
    simp only [extract, read?_reordered same]
  · intro limits operations k member
    have resting := Session.afterAll_resting limits operations
    have wellFormed := resting.coherent.statement k (by simpa [Statement.keywords] using member)
    rcases wellFormed.word with equals | isWord
    · simp [equals]
    · exact isWord.nonempty

/-- Witness: a line of eight keywords before its initializer, with two types too many of which one
stands behind `=`, and a `layout` that is repeated. Its keywords are four qualifiers, a type, an
identifier and two surplus ones, and mixed otherwise they give the same.
-/
theorem extract_accounts_for_keywords_mixed
    : let at1 : Keyword := ⟨"layout", (∅ : Parameters).insertIfNew "location" "1"⟩
      let at2 : Keyword := ⟨"layout", (∅ : Parameters).insertIfNew "location" "2"⟩
      let initializer := ["=", "in", "vec2"].map fun word => { word : Keyword }
      let keywords : List Keyword :=
        [⟨"flat", ∅⟩, ⟨"b", ∅⟩, ⟨"vec3", ∅⟩, at1, ⟨"in", ∅⟩, ⟨"int", ∅⟩, at2, ⟨"c", ∅⟩] ++ initializer
      let reordered : List Keyword :=
        [⟨"b", ∅⟩, ⟨"vec3", ∅⟩, ⟨"flat", ∅⟩, at1, ⟨"int", ∅⟩, ⟨"c", ∅⟩, ⟨"in", ∅⟩, at2]
      ∃ (d : Declaration) (findings : List Finding),
        ({} : Scanner).extract keywords
          = (some d, { warnings := (findings.map (Warning.atLine 0)).toArray })
        ∧ 8 = 1 + d.qualifiers.length + (if d.name = "" then 0 else 1)
            + findings.countP Finding.isSurplus
        ∧ d.name = "b"
        ∧ d.parameter .layout "location" = "1"
        ∧ ({} : Scanner).extract (reordered ++ initializer) = ({} : Scanner).extract keywords := by
  intro at1 at2 initializer keywords reordered
  obtain ⟨_, account, mixed, _⟩ := extract_accounts_for_keywords {} keywords
  obtain ⟨_, _, _, d, _, findings, _, _, _, _, extracted, _, words⟩ := account (by decide +kernel)
  have same : SameOrders reordered (beforeInitializer keywords) := by
    constructor <;> decide +kernel
  have read
      : (({} : Scanner).extract keywords).1.map (fun d => (d.name, d.parameter .layout "location"))
        = some ("b", "1") := by
    decide +kernel
  rw [extracted, Option.map_some, Option.some.injEq, Prod.mk.injEq] at read
  refine ⟨d, findings, by simpa using extracted, (words (by decide +kernel)).2, read.1, read.2, ?_⟩
  exact mixed reordered same

end Scanner

end ShaderReflection
