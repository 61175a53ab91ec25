import ShaderReflection.Proofs.Text.DecimalRoundTrip
import ShaderReflection.Stage.Assembly

/-! Variables as they can be declared, the line that declares each of them, and the statement that a
scan should collect from that line. Reading the statement gives the variable back.
-/

namespace ShaderReflection

/-- The qualifier that gives a variable its role. -/
def Role.qualifier : Role → Qualifier
  | input => .input
  | output => .output
  | uniform => .uniform

/-- A variable that can be declared: with a type, a location of a length that may be written, and
an identifier that is a word but no qualifier.
-/
structure DeclaredVariable where
  role : Role
  type : DataType
  flat : Bool := false
  location : Option Int := none
  name : String
  typed : type ∈ DataType.declarable
  writable : ∀ n ∈ location, Text.isWritable n
  word : Text.IsWord name
  unreserved : ∀ q ∈ Qualifier.declarable, name ≠ q.keyword

namespace DeclaredVariable

/-- The layout in front of a declaration, if a location is given. -/
def layoutText (location : Option Int) : String :=
  (location.map fun n => "layout(location = " ++ toString n ++ ") ").getD ""

/-- The line that declares a variable. -/
def line (d : DeclaredVariable) : String :=
  layoutText d.location ++ (if d.flat then "flat " else "")
    ++ d.role.qualifier.keyword ++ " " ++ d.type.keyword ++ " " ++ d.name ++ ";"

/-- The variable as a stage should list it. -/
def toVariable (d : DeclaredVariable) : Variable where
  name := d.name
  type := d.type
  flat := d.flat
  location := d.location.getD unlocated

/-- The variables with a role, as declared. -/
def variablesOf (role : Role) (declared : List DeclaredVariable) : List Variable :=
  (declared.filter fun d => d.role = role).map toVariable

/-- The parameter list with a location. -/
def locationParameters (n : Int) : Parameters :=
  (∅ : Parameters).insertIfNew "location" (toString n)

/-- The layout, if a location is given. -/
def layoutKeywords : Option Int → List Keyword
  | some n => [{ word := Qualifier.layout.keyword, parameters := locationParameters n }]
  | none => []

/-- The qualifiers of a declaration, each with its parameter list. -/
def qualifierKeywords (d : DeclaredVariable) : List Keyword :=
  layoutKeywords d.location ++ (if d.flat then [{ word := Qualifier.flat.keyword }] else [])
    ++ [{ word := d.role.qualifier.keyword }]

/-- The statement of a declaration. -/
def keywords (d : DeclaredVariable) : List Keyword :=
  d.qualifierKeywords ++ [{ word := d.type.keyword }, { word := d.name }]

/-- The declaration that the statement makes. -/
def declaration (d : DeclaredVariable) : Declaration where
  name := d.name
  type := d.type
  qualifiers :=
    (if d.location.isSome then [.layout] else []) ++ (if d.flat then [.flat] else [])
      ++ [d.role.qualifier]
  parameters :=
    match d.location with
    | some n => (∅ : OrderedMap Qualifier Parameters).insertIfNew .layout (locationParameters n)
    | none => ∅

end DeclaredVariable

-----------------------------------------------------------------------------------------
-- Keywords name what they are the keywords of
-----------------------------------------------------------------------------------------

namespace Qualifier

theorem isWord_keyword (q : Qualifier) : Text.IsWord q.keyword := by
  cases q <;> decide +kernel

theorem ofKeyword?_keyword {q : Qualifier} (declarable : q ∈ declarable)
    : ofKeyword? q.keyword = some q := by
  revert q
  decide

theorem mem_declarable {q : Qualifier} : q ∈ declarable ↔ q ≠ .unspecified := by
  cases q <;> decide

theorem not_type (q : Qualifier) : DataType.ofKeyword? q.keyword = none := by
  cases q <;> decide +kernel

end Qualifier

namespace DataType

theorem isWord_keyword (type : DataType) : Text.IsWord type.keyword := by
  cases type <;> decide +kernel

theorem ofKeyword?_keyword {type : DataType} (declarable : type ∈ declarable)
    : ofKeyword? type.keyword = some type := by
  revert type
  decide

end DataType

theorem Role.qualifier_declarable (role : Role) : role.qualifier ∈ Qualifier.declarable := by
  cases role <;> decide

namespace Declaration

/-- The first type is taken out from between the keywords around it, by induction along those
before it.
-/
theorem takeType?_append {before behind : List Keyword} {k : Keyword} {type : DataType}
    (untyped : ∀ k ∈ before, DataType.ofKeyword? k.word = none)
    (typed : DataType.ofKeyword? k.word = some type)
    : takeType? (before ++ k :: behind) = some (type, before ++ behind) := by
  induction before with
  | nil => simp only [List.nil_append, takeType?, typed]
  | cons first rest ih =>
      have later := ih fun k member => untyped k (by simp [member])
      simp only [List.cons_append, takeType?, untyped first (by simp), later, Option.map_some]

theorem beforeInitializer_of_words {keywords : List Keyword}
    (words : ∀ k ∈ keywords, Text.IsWord k.word)
    : beforeInitializer keywords = keywords := by
  have noWord : ¬Text.IsWord "=" := by decide +kernel
  have noEquals : ∀ k ∈ keywords, decide (k.word ≠ "=") := by
    intro k member
    rw [decide_eq_true_eq]
    intro written
    exact noWord (written ▸ words k member)
  have whole : beforeInitializer (keywords ++ []) = keywords ++ beforeInitializer [] :=
    List.takeWhile_append_of_pos noEquals
  simpa [beforeInitializer] using whole

end Declaration

-----------------------------------------------------------------------------------------
-- Reading the statement of a declared variable
-----------------------------------------------------------------------------------------

namespace DeclaredVariable

open Declaration

theorem mem_qualifierKeywords {d : DeclaredVariable} {k : Keyword}
    (member : k ∈ d.qualifierKeywords)
    : ∃ q ∈ Qualifier.declarable, k.word = q.keyword := by
  simp only [qualifierKeywords, List.mem_append, List.mem_singleton] at member
  rcases member with (inLayout | isFlat) | rfl
  · unfold layoutKeywords at inLayout
    split at inLayout
    · obtain rfl := List.mem_singleton.mp inLayout
      exact ⟨.layout, by decide, rfl⟩
    · cases inLayout
  · split at isFlat
    · obtain rfl := List.mem_singleton.mp isFlat
      exact ⟨.flat, by decide, rfl⟩
    · cases isFlat
  · exact ⟨d.role.qualifier, d.role.qualifier_declarable, rfl⟩

theorem ofKeyword?_name (d : DeclaredVariable) : Qualifier.ofKeyword? d.name = none := by
  apply List.find?_eq_none.mpr
  intro q declarable
  simpa using (d.unreserved q declarable).symm

theorem isWord_of_mem_keywords {d : DeclaredVariable} {k : Keyword} (member : k ∈ d.keywords)
    : Text.IsWord k.word := by
  rcases List.mem_append.mp member with qualifies | names
  · obtain ⟨q, _, written⟩ := mem_qualifierKeywords qualifies
    exact written ▸ q.isWord_keyword
  · simp only [List.mem_cons, List.not_mem_nil, or_false] at names
    rcases names with rfl | rfl
    · exact d.type.isWord_keyword
    · exact d.word

theorem takeType?_keywords (d : DeclaredVariable)
    : takeType? d.keywords = some (d.type, d.qualifierKeywords ++ [{ word := d.name }]) := by
  refine takeType?_append ?_ (DataType.ofKeyword?_keyword d.typed)
  intro k member
  obtain ⟨q, _, written⟩ := mem_qualifierKeywords member
  exact written ▸ q.not_type

theorem namesOf_keywords (d : DeclaredVariable)
    : namesOf (d.qualifierKeywords ++ [{ word := d.name }]) = [d.name] := by
  have noNames
      : (d.qualifierKeywords.filter fun k => (Qualifier.ofKeyword? k.word).isNone) = [] := by
    rw [List.filter_eq_nil_iff]
    intro k member
    obtain ⟨q, declarable, written⟩ := mem_qualifierKeywords member
    rw [written, Qualifier.ofKeyword?_keyword declarable]
    simp
  rw [namesOf, List.filter_append, noNames]
  simp [d.ofKeyword?_name]

theorem qualifiersOf_keywords (d : DeclaredVariable)
    : qualifiersOf (d.qualifierKeywords ++ [{ word := d.name }]) = d.declaration.qualifiers := by
  have named {q : Qualifier} := @Qualifier.ofKeyword?_keyword q
  cases location : d.location <;> cases isFlat : d.flat <;>
    simp [qualifiersOf, qualifierKeywords, layoutKeywords, declaration, location, isFlat, named,
      d.role.qualifier_declarable, Qualifier.mem_declarable, d.ofKeyword?_name]

theorem parametersOf_keywords (d : DeclaredVariable)
    : parametersOf (d.qualifierKeywords ++ [{ word := d.name }]) = d.declaration.parameters := by
  have named {q : Qualifier} := @Qualifier.ofKeyword?_keyword q
  have absent : (∅ : Parameters).isEmpty := rfl
  have given (n : Int) : (locationParameters n).isEmpty = false := rfl
  cases location : d.location <;> cases isFlat : d.flat <;>
    simp [parametersOf, qualifierKeywords, layoutKeywords, declaration, location, isFlat, named,
      absent, given, d.role.qualifier_declarable, Qualifier.mem_declarable, d.ofKeyword?_name]

/-- The statement of a declared variable makes its declaration, with no word left over. -/
theorem read?_keywords (d : DeclaredVariable)
    : read? d.keywords = some { declaration := d.declaration, surplus := [] } := by
  have whole : beforeInitializer d.keywords = d.keywords :=
    beforeInitializer_of_words fun _ member => isWord_of_mem_keywords member
  have named : [d.name].dropWhile (· = "") = [d.name] := by simp [d.word.nonempty]
  simp only [read?, whole, d.takeType?_keywords, d.namesOf_keywords, named,
    d.qualifiersOf_keywords, d.parametersOf_keywords]
  rfl

-----------------------------------------------------------------------------------------
-- The declaration declares the variable
-----------------------------------------------------------------------------------------

theorem role?_declaration (d : DeclaredVariable) : d.declaration.role? = some d.role := by
  cases role : d.role <;> cases location : d.location <;> cases isFlat : d.flat <;>
    simp [Declaration.role?, Declaration.has, declaration, role, location, isFlat, Role.qualifier]

theorem has_flat_declaration (d : DeclaredVariable) : d.declaration.has .flat = d.flat := by
  cases role : d.role <;> cases location : d.location <;> cases isFlat : d.flat <;>
    simp [Declaration.has, declaration, role, location, isFlat, Role.qualifier]

theorem locationText_declaration (d : DeclaredVariable)
    : d.declaration.locationText = (d.location.map toString).getD "" := by
  simp only [Declaration.locationText, Declaration.parameter, declaration]
  cases d.location <;> rfl

theorem location_declaration (d : DeclaredVariable)
    : d.declaration.location = d.location.getD unlocated := by
  rw [Declaration.location, locationText_declaration]
  cases location : d.location with
  | none => decide
  | some n =>
      simp only [Option.map_some, Option.getD_some, Text.integer?_toString (d.writable n location)]

theorem hasInvalidLocation_declaration (d : DeclaredVariable)
    : d.declaration.hasInvalidLocation = false := by
  rw [Declaration.hasInvalidLocation, locationText_declaration]
  cases location : d.location with
  | none => decide
  | some n =>
      simp only [Option.map_some, Option.getD_some, Text.integer?_toString (d.writable n location),
        Option.isNone_some, Bool.and_false]

theorem toVariable_declaration (d : DeclaredVariable)
    : d.declaration.toVariable = d.toVariable := by
  simp only [Declaration.toVariable, has_flat_declaration, location_declaration, toVariable]
  rfl

/-- The declarations of variables declare exactly these variables, role by role and in order. -/
theorem variablesOf_declarations (role : Role) (declared : List DeclaredVariable)
    : Declaration.variablesOf role (declared.map declaration) = variablesOf role declared := by
  simp only [Declaration.variablesOf, variablesOf, List.filter_map, List.map_map]
  congr 1
  · funext d
    exact d.toVariable_declaration
  · apply List.filter_congr
    intro d _
    simp [role?_declaration]

end DeclaredVariable

end ShaderReflection
