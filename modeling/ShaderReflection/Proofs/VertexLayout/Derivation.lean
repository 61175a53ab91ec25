import Mathlib.Algebra.BigOperators.Group.List.Basic
import Mathlib.Algebra.Ring.Int.Defs
import ShaderReflection.Proofs.OrderedMap.Entries
import ShaderReflection.Proofs.Variable.RecordOrder
import ShaderReflection.VertexLayout

/-! How the layout of a vertex record is derived from the inputs of the vertex stage: the inputs are
put in record order and packed, nothing else changes, and a second derivation changes nothing at
all. Where the locations differ, the order of declaration does not matter.
-/

namespace ShaderReflection

/-- The bytes that variables take together. -/
def Variable.bytes (inputs : List Variable) : Int :=
  (inputs.map fun v => (v.type.size : Int)).sum

namespace VertexLayout

/-- Each packed variable is an attribute behind the bytes of those before it, by induction along the
variables with the offset of the first.
-/
theorem packFrom_getElem? (offset : Int) (inputs : List Variable) (i : Nat)
    : (packFrom offset inputs)[i]?
      = inputs[i]?.map fun v =>
          { name := v.name
            type := v.type
            size := v.type.size
            offset := offset + Variable.bytes (inputs.take i)
            location := v.location } := by
  induction inputs generalizing offset i with
  | nil => rfl
  | cons v rest ih =>
      cases i with
      | zero => simp [packFrom, Variable.bytes]
      | succ i =>
          rw [packFrom, List.getElem?_cons_succ, List.getElem?_cons_succ, ih]
          simp [Variable.bytes, Int.add_assoc]

theorem pack_getElem? (inputs : List Variable) (i : Nat)
    : (pack inputs).attributes[i]?
      = inputs[i]?.map fun v =>
          { name := v.name
            type := v.type
            size := v.type.size
            offset := Variable.bytes (inputs.take i)
            location := v.location } := by
  rw [pack, packFrom_getElem?]
  simp only [Int.zero_add]

/-- Packed variables have the bytes of the variables together, by induction along them. -/
theorem stride_packFrom (offset : Int) (inputs : List Variable)
    : stride { attributes := packFrom offset inputs } = Variable.bytes inputs := by
  induction inputs generalizing offset with
  | nil => rfl
  | cons v rest ih =>
      rw [packFrom, stride_cons, ih]
      simp [Variable.bytes]

theorem stride_pack (inputs : List Variable) : (pack inputs).stride = Variable.bytes inputs :=
  stride_packFrom 0 inputs

end VertexLayout

open Variable in
/-- The layout of a vertex record is derived from the one list of the vertex inputs in record order.
That list replaces the inputs, and nothing else changes; each of its variables is an attribute
behind the bytes of those before it; and deriving the layout again changes nothing.
-/
theorem vertex_layout_derived (stages : StageMap) (vertex : Stage)
    (found : stages.get? .vertex = some vertex)
    : ∃ ordered arranged layout,
        stages.arrangeInputs? = some (arranged, layout)
        ∧ (∀ other, RecordOrder other vertex.inputs ↔ other = ordered)
        ∧ arranged.entries
          = (stages.entries.map fun e =>
              if e.1 = .vertex then (e.1, { vertex with inputs := ordered }) else e)
        ∧ (∀ i : Nat, layout.attributes[i]?
            = ordered[i]?.map fun v =>
                { name := v.name
                  type := v.type
                  size := v.type.size
                  offset := bytes (ordered.take i)
                  location := v.location })
        ∧ layout.stride = bytes ordered
        ∧ arranged.arrangeInputs? = some (arranged, layout) := by
  let ordered := arrange vertex.inputs
  let arranged := stages.insert .vertex { vertex with inputs := ordered }
  have derived : stages.arrangeInputs? = some (arranged, .pack ordered) := by
    rw [StageMap.arrangeInputs?, found]
    rfl
  have present : StageKind.vertex ∈ stages.keys := by
    rw [← OrderedMap.get?_isSome_iff, found]
    rfl
  have foundAgain : arranged.get? .vertex = some { vertex with inputs := ordered } := by
    rw [OrderedMap.get?_insert, if_pos rfl]
  refine ⟨ordered, arranged, .pack ordered, derived, fun _ => recordOrder_iff, ?_,
    VertexLayout.pack_getElem? ordered, VertexLayout.stride_pack ordered, ?_⟩
  · exact OrderedMap.entries_insert_of_mem present _
  · rw [StageMap.arrangeInputs?, foundAgain]
    simp only [Option.map_some, arrange_arrange, ordered]
    rw [OrderedMap.insert_of_found foundAgain]

open Variable in
/-- Witness: a vertex stage behind the fragment stage, with two inputs without a location, two
inputs at one location and one at a location below minus one.
-/
theorem vertex_layout_derived_below_unlocated
    : let a : Variable := { name := "a", type := .vec3, location := 3 }
      let b : Variable := { name := "b", type := .float }
      let c : Variable := { name := "c", type := .mat2, location := -5 }
      let d : Variable := { name := "d", type := .vec2, location := 3 }
      let vertex : Stage := { kind := .vertex, source := "x", inputs := [a, b, c, d, b] }
      let stages : StageMap := .ofList [(.fragment, { outputs := [a] }), (.vertex, vertex)]
      stages.get? .vertex = some vertex
      ∧ ∃ arranged layout,
          stages.arrangeInputs? = some (arranged, layout)
          ∧ arranged.entries
            = [(.fragment, { outputs := [a] }), (.vertex, { vertex with inputs := [b, b, c, a, d] })]
          ∧ layout.attributes[3]?
            = some { name := "a", type := .vec3, size := 12, offset := 24, location := 3 }
          ∧ layout.stride = 44
          ∧ arranged.arrangeInputs? = some (arranged, layout) := by
  intro a b c d vertex stages
  have found : stages.get? .vertex = some vertex := by decide +kernel
  have inOrder : RecordOrder [b, b, c, a, d] vertex.inputs := by
    refine ⟨by decide, by decide, by decide, ?_⟩
    intro location
    by_cases three : location = 3
    · subst three
      decide
    · by_cases five : location = -5
      · subst five
        decide
      · simp [vertex, a, c, d, List.filter_cons, Ne.symm three, Ne.symm five]
  obtain ⟨ordered, arranged, layout, derived, only, entries, attributes, stride, again⟩ :=
    vertex_layout_derived stages vertex found
  obtain rfl := (only _).mp inOrder
  refine ⟨found, arranged, layout, derived, ?_, ?_, ?_, again⟩
  · rw [entries]
    decide +kernel
  · rw [attributes]
    decide +kernel
  · rw [stride]
    decide +kernel

open Variable in
/-- The layout of a vertex record does not depend on the order in which located inputs are declared.
For inputs in any two orders the locations and the stride agree, and if all locations differ, so do
the arranged inputs and the whole layout.
-/
theorem vertex_layout_of_perm (inputs others : List Variable) (perm : inputs.Perm others)
    : ((inputs.map location).Nodup
        → arrange inputs = arrange others
          ∧ VertexLayout.pack (arrange inputs) = VertexLayout.pack (arrange others))
      ∧ (arrange inputs).map location = (arrange others).map location
      ∧ (VertexLayout.pack (arrange inputs)).stride
        = (VertexLayout.pack (arrange others)).stride := by
  refine ⟨?_, location_arrange_of_perm perm, ?_⟩
  · intro distinct
    have same := arrange_eq_of_perm perm distinct
    exact ⟨same, congrArg VertexLayout.pack same⟩
  · have bytes_eq : bytes (arrange inputs) = bytes (arrange others) :=
      ((arrange_perm_of_perm perm).map _).sum_eq
    rw [VertexLayout.stride_pack, VertexLayout.stride_pack, bytes_eq]

open Variable in
/-- Witness: three inputs at different locations in reverse order, and three of which two share
their location.
-/
theorem vertex_layout_of_perm_reversed
    : let a : Variable := { name := "a", type := .vec3, location := 3 }
      let b : Variable := { name := "b", type := .float }
      let c : Variable := { name := "c", type := .mat2, location := -5 }
      let d : Variable := { name := "d", type := .vec2, location := 3 }
      ([a, b, c].Perm [c, b, a]
        ∧ ([a, b, c].map location).Nodup
        ∧ VertexLayout.pack (arrange [a, b, c]) = VertexLayout.pack (arrange [c, b, a]))
      ∧ [a, b, d].Perm [d, a, b]
      ∧ ¬([a, b, d].map location).Nodup
      ∧ (arrange [a, b, d]).map location = (arrange [d, a, b]).map location
      ∧ (VertexLayout.pack (arrange [a, b, d])).stride
        = (VertexLayout.pack (arrange [d, a, b])).stride := by
  intro a b c d
  have perm : [a, b, c].Perm [c, b, a] := by decide
  have distinct : ([a, b, c].map location).Nodup := by decide
  have rotated : [a, b, d].Perm [d, a, b] := by decide
  obtain ⟨_, locations, stride⟩ := vertex_layout_of_perm [a, b, d] [d, a, b] rotated
  exact ⟨⟨perm, distinct, ((vertex_layout_of_perm _ _ perm).1 distinct).2⟩, rotated, by decide,
    locations, stride⟩

end ShaderReflection
