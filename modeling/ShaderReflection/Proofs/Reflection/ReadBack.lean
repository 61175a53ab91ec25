import Mathlib.Data.List.Nodup
import ShaderReflection.Proofs.Build.Outcome
import ShaderReflection.Proofs.Json.RoundTrip
import ShaderReflection.Reflection

/-! Reflection documents are read back from their text, and what they say of a built shader is all
that its stages and its layout hold.
-/

namespace ShaderReflection

-----------------------------------------------------------------------------------------
-- Which documents can be written
-----------------------------------------------------------------------------------------

namespace Json

theorem areWritable_iff (items : List Value)
    : areWritable items ↔ ∀ item ∈ items, isWritable item := by
  induction items with
  | nil => simp [areWritable]
  | cons item rest ih => simp [areWritable, ih]

theorem haveWritable_iff (members : List (String × Value))
    : haveWritable members ↔ ∀ member ∈ members, isWritable member.2 := by
  induction members with
  | nil => simp [haveWritable]
  | cons member rest ih => simp [haveWritable, ih]

end Json

/-- No integer of a shader has too many digits to be written. -/
structure Shader.Writable (shader : Shader) : Prop where
  interfaces
    : ∀ e ∈ shader.stages.entries, ∀ v ∈ e.2.inputs ++ e.2.outputs ++ e.2.uniforms,
        Text.isWritable v.location
  attributes
    : ∀ a ∈ shader.layout.attributes,
        Text.isWritable a.location ∧ Text.isWritable a.offset ∧ Text.isWritable a.size
  stride : Text.isWritable shader.layout.stride

theorem StageMap.inPipelineOrder_perm (stages : StageMap)
    : stages.inPipelineOrder.Perm stages.entries :=
  List.mergeSort_perm _ _

theorem Json.isWritable_interface {declared : List Variable}
    (short : ∀ v ∈ declared, Text.isWritable v.location)
    : Json.isWritable (.array (declared.map Variable.reflect)) := by
  rw [Json.isWritable, Json.areWritable_iff, List.forall_mem_map]
  intro v member
  simp [Variable.reflect, Json.isWritable, Json.haveWritable, short v member]

theorem Stage.isWritable_reflect {stage : Stage} (includeSource : Bool)
    (short : ∀ v ∈ stage.inputs ++ stage.outputs ++ stage.uniforms, Text.isWritable v.location)
    : Json.isWritable (stage.reflect includeSource) := by
  simp only [List.mem_append, or_imp, forall_and] at short
  obtain ⟨⟨inputs, outputs⟩, uniforms⟩ := short
  have interface := And.intro (Json.isWritable_interface inputs)
    (And.intro (Json.isWritable_interface outputs) (Json.isWritable_interface uniforms))
  cases includeSource <;> simpa [reflect, Json.isWritable, Json.haveWritable] using interface

theorem Attribute.isWritable_reflect {a : Attribute}
    (short : Text.isWritable a.location ∧ Text.isWritable a.offset ∧ Text.isWritable a.size)
    : Json.isWritable a.reflect := by
  cases format : a.type.attributeFormat? <;>
    simp [reflect, format, Json.isWritable, Json.haveWritable, short]

/-- The document of a shader can be written if all its integers can. -/
theorem Shader.Writable.reflectionText? {shader : Shader} (writable : shader.Writable)
    (sourceName : String) (includeSource : Bool)
    : shader.reflectionText? sourceName includeSource
      = some (shader.reflectionText sourceName includeSource) := by
  have stages
      : Json.haveWritable (shader.stages.inPipelineOrder.map fun e =>
          (e.1.name, e.2.reflect includeSource)) := by
    rw [Json.haveWritable_iff, List.forall_mem_map]
    intro e member
    have among := shader.stages.inPipelineOrder_perm.mem_iff.mp member
    exact Stage.isWritable_reflect includeSource (writable.interfaces e among)
  have attributes : Json.areWritable (shader.layout.attributes.map Attribute.reflect) := by
    rw [Json.areWritable_iff, List.forall_mem_map]
    exact fun a member => Attribute.isWritable_reflect (writable.attributes a member)
  have version : Text.isWritable Shader.reflectionVersion := by decide +kernel
  have whole : Json.isWritable (shader.reflect sourceName includeSource) := by
    simp only [reflect, Json.isWritable, Json.haveWritable, Bool.and_eq_true]
    exact ⟨version, trivial, stages, attributes, writable.stride, trivial⟩
  rw [Shader.reflectionText?, if_pos whole]

-----------------------------------------------------------------------------------------
-- No name occurs twice in an object
-----------------------------------------------------------------------------------------

theorem StageKind.ofName?_name (kind : StageKind) : ofName? kind.name = some kind := by
  cases kind <;> rfl

theorem StageKind.name_injective : Function.Injective name := by
  intro kind other same
  have found := ofName?_name kind
  rw [same, ofName?_name other] at found
  exact (Option.some.inj found).symm

theorem Variable.uniqueNames_reflect (v : Variable) : v.reflect.UniqueNames := by
  refine .object (by simp) ?_
  simp only [List.forall_mem_cons, List.not_mem_nil, false_implies, implies_true, and_true]
  exact ⟨.string _, .string _, .int _, .bool _⟩

theorem Json.uniqueNames_interface (declared : List Variable)
    : (Json.Value.array (declared.map Variable.reflect)).UniqueNames := by
  refine .array ?_
  rw [List.forall_mem_map]
  exact fun v _ => v.uniqueNames_reflect

theorem Stage.uniqueNames_reflect (stage : Stage) (includeSource : Bool)
    : (stage.reflect includeSource).UniqueNames := by
  have interface (declared : List Variable) := Json.uniqueNames_interface declared
  cases includeSource with
  | false =>
      refine .object (by simp) ?_
      simp only [Bool.false_eq_true, if_false, List.nil_append, List.forall_mem_cons,
        List.not_mem_nil, false_implies, implies_true, and_true]
      exact ⟨interface _, interface _, interface _⟩
  | true =>
      refine .object (by simp) ?_
      simp only [if_true, List.singleton_append, List.forall_mem_cons, List.not_mem_nil,
        false_implies, implies_true, and_true]
      exact ⟨.string _, interface _, interface _, interface _⟩

theorem Attribute.uniqueNames_reflect (a : Attribute) : a.reflect.UniqueNames := by
  refine .object (by simp) ?_
  simp only [List.forall_mem_cons, List.not_mem_nil, false_implies, implies_true, and_true]
  refine ⟨.string _, .string _, .int _, ?_, .int _, .int _⟩
  cases a.type.attributeFormat? with
  | none => exact .null
  | some format => exact .string format

/-- No object of a reflection document names a member twice: stages of different kinds have
different names. -/
theorem Shader.uniqueNames_reflect (shader : Shader) (sourceName : String) (includeSource : Bool)
    : (shader.reflect sourceName includeSource).UniqueNames := by
  have kinds : (shader.stages.inPipelineOrder.map Prod.fst).Nodup :=
    (shader.stages.inPipelineOrder_perm.map Prod.fst).nodup_iff.mpr shader.stages.nodup
  have stages
      : (Json.Value.object (shader.stages.inPipelineOrder.map fun e =>
          (e.1.name, e.2.reflect includeSource))).UniqueNames := by
    refine .object ?_ ?_
    · have names := List.Nodup.map StageKind.name_injective kinds
      rw [List.map_map] at names ⊢
      exact names
    · rw [List.forall_mem_map]
      exact fun e _ => e.2.uniqueNames_reflect includeSource
  have attributes
      : (Json.Value.array (shader.layout.attributes.map Attribute.reflect)).UniqueNames := by
    refine .array ?_
    rw [List.forall_mem_map]
    exact fun a _ => a.uniqueNames_reflect
  refine .object (by simp) ?_
  simp only [List.forall_mem_cons, List.not_mem_nil, false_implies, implies_true, and_true]
  exact ⟨.int _, .string _, stages, attributes, .int _⟩

-----------------------------------------------------------------------------------------
-- What a document says of a shader
-----------------------------------------------------------------------------------------

theorem DataType.ofName?_keyword (type : DataType) : ofName? type.keyword = some type := by
  cases type <;> rfl

theorem DataType.keyword_injective : Function.Injective keyword := by
  intro type other same
  have found := ofName?_keyword type
  rw [same, ofName?_keyword other] at found
  exact (Option.some.inj found).symm

theorem Variable.reflect_injective : Function.Injective reflect := by
  intro v w same
  simp only [reflect, Json.Value.object.injEq, List.cons.injEq, Prod.mk.injEq,
    Json.Value.string.injEq, Json.Value.int.injEq, Json.Value.bool.injEq, true_and, and_true] at same
  obtain ⟨name, type, location, flat⟩ := same
  cases v
  cases w
  simp_all [DataType.keyword_injective.eq_iff]

theorem Attribute.reflect_injective : Function.Injective reflect := by
  intro a b same
  simp only [reflect, Json.Value.object.injEq, List.cons.injEq, Prod.mk.injEq,
    Json.Value.string.injEq, Json.Value.int.injEq, true_and, and_true] at same
  obtain ⟨name, type, location, _, offset, size⟩ := same
  cases a
  cases b
  simp_all [DataType.keyword_injective.eq_iff]

/-- Stages of one kind that are reflected alike with their sources are the same. -/
theorem Stage.eq_of_reflect {s t : Stage} (kind : s.kind = t.kind)
    (same : s.reflect true = t.reflect true)
    : s = t := by
  have listed {declared others : List Variable}
      (same : declared.map Variable.reflect = others.map Variable.reflect)
      : declared = others :=
    List.map_injective_iff.mpr Variable.reflect_injective same
  simp only [reflect, if_true, List.singleton_append, Json.Value.object.injEq, List.cons.injEq,
    Prod.mk.injEq, Json.Value.string.injEq, Json.Value.array.injEq, true_and, and_true] at same
  obtain ⟨source, inputs, outputs, uniforms⟩ := same
  cases s
  cases t
  simp only [Stage.mk.injEq]
  exact ⟨kind, source, listed inputs, listed outputs, listed uniforms⟩

theorem build_succeeded {limits : Limits} {text : String}
    (succeeds : (build limits text).error = none)
    : (build limits text).Succeeded := by
  cases scanned : ({} : Scanner).scan limits text with
  | error stopped => simp [build, scanned] at succeeds
  | ok s =>
      rw [build_of_scan scanned] at succeeds ⊢
      exact Scanner.result_succeeded (Scanner.fault?_of_succeeds succeeds)

/-- Built shaders that are reflected alike with their sources have the same stages and layout. -/
theorem BuildResult.Succeeded.eq_of_reflect {r q : BuildResult} (built : r.Succeeded)
    (other : q.Succeeded) {sourceName : String}
    (same : r.shader.reflect sourceName true = q.shader.reflect sourceName true)
    : r.shader.stages = q.shader.stages ∧ r.shader.layout = q.shader.layout := by
  obtain ⟨vertex, fragment, entries, vertexKind, fragmentKind, _⟩ := built.stages
  obtain ⟨otherVertex, otherFragment, otherEntries, otherVertexKind, otherFragmentKind, _⟩ :=
    other.stages
  have ordered (v f : Stage)
      : ([(.vertex, v), (.fragment, f)] : List (StageKind × Stage)).mergeSort
          (fun s t => decide (s.1.rank ≤ t.1.rank))
        = [(.vertex, v), (.fragment, f)] :=
    List.mergeSort_of_pairwise (by simp [StageKind.rank])
  simp only [Shader.reflect, StageMap.inPipelineOrder, entries, otherEntries, ordered,
    List.map_cons, List.map_nil, Json.Value.object.injEq, List.cons.injEq, Prod.mk.injEq,
    Json.Value.array.injEq, true_and, and_true] at same
  obtain ⟨⟨vertexSame, fragmentSame⟩, attributes, _⟩ := same
  refine ⟨?_, ?_⟩
  · apply OrderedMap.ext
    rw [entries, otherEntries, Stage.eq_of_reflect (vertexKind.trans otherVertexKind.symm) vertexSame,
      Stage.eq_of_reflect (fragmentKind.trans otherFragmentKind.symm) fragmentSame]
  · have listed := List.map_injective_iff.mpr Attribute.reflect_injective attributes
    exact congrArg VertexLayout.mk listed

-----------------------------------------------------------------------------------------
-- The text of a document
-----------------------------------------------------------------------------------------

/-- The text of a reflection document is read as that document. -/
theorem Shader.decode?_reflectionText (shader : Shader) (sourceName : String) (includeSource : Bool)
    : Json.decode? (shader.reflectionText sourceName includeSource)
      = some (shader.reflect sourceName includeSource) :=
  Json.decode?_write (shader.uniqueNames_reflect sourceName includeSource) ['\n']
    (by simp [Json.isWhitespace])

/-- The text of a reflection document is ASCII, and is one document and one line break. -/
theorem Shader.reflectionText_eq (shader : Shader) (sourceName : String) (includeSource : Bool)
    : (∀ c ∈ (shader.reflectionText sourceName includeSource).toList, c.toNat < 128)
      ∧ ∃ document,
          shader.reflectionText sourceName includeSource = document ++ "\n"
          ∧ document.toList.getLast? ≠ some '\n'
          ∧ Json.decode? document = some (shader.reflect sourceName includeSource) := by
  have unique := shader.uniqueNames_reflect sourceName includeSource
  refine ⟨?_, String.ofList (Json.write 0 (shader.reflect sourceName includeSource)), ?_, ?_, ?_⟩
  · intro c member
    rw [reflectionText, Json.text, String.toList_ofList, List.mem_append] at member
    rcases member with own | lineBreak
    · exact Json.write_ascii unique 0 c own
    · rw [List.mem_singleton.mp lineBreak]
      decide
  · rw [reflectionText, Json.text, String.ofList_append]
  · rw [String.toList_ofList, reflect, Json.getLast?_write_object]
    decide
  · have bare := Json.decode?_write unique [] (by simp)
    rwa [List.append_nil] at bare

/-- A reflection document is emitted whenever its integers can be written, as ASCII, and is read
back from its text with all members in their places. The text is one document and one line break.
So built shaders with the same text have the same stages and the same layout.
-/
theorem reflection_reads_back
    : (∀ (shader : Shader) (sourceName : String) (includeSource : Bool), shader.Writable
        → ∃ text document,
            shader.reflectionText? sourceName includeSource = some text
            ∧ (∀ c ∈ text.toList, c.toNat < 128)
            ∧ text = document ++ "\n"
            ∧ document.toList.getLast? ≠ some '\n'
            ∧ Json.decode? document = some (shader.reflect sourceName includeSource)
            ∧ Json.decode? text = some (shader.reflect sourceName includeSource))
      ∧ ∀ (limits otherLimits : Limits) (source otherSource sourceName text : String),
          (build limits source).error = none
          → (build otherLimits otherSource).error = none
          → (build limits source).shader.reflectionText? sourceName true = some text
          → (build otherLimits otherSource).shader.reflectionText? sourceName true = some text
          → (build limits source).shader.stages = (build otherLimits otherSource).shader.stages
            ∧ (build limits source).shader.layout
              = (build otherLimits otherSource).shader.layout := by
  refine ⟨?_, ?_⟩
  · intro shader sourceName includeSource writable
    obtain ⟨ascii, document, whole, last, bare⟩ := shader.reflectionText_eq sourceName includeSource
    exact ⟨_, document, writable.reflectionText? sourceName includeSource, ascii, whole, last, bare,
      shader.decode?_reflectionText sourceName includeSource⟩
  · intro limits otherLimits source otherSource sourceName text built otherBuilt emits otherEmits
    have written {shader : Shader} (emitted : shader.reflectionText? sourceName true = some text)
        : Json.decode? text = some (shader.reflect sourceName true) := by
      unfold Shader.reflectionText? at emitted
      split at emitted
      · rw [← Option.some.inj emitted]
        exact shader.decode?_reflectionText sourceName true
      · cases emitted
    have same := (written emits).symm.trans (written otherEmits)
    exact (build_succeeded built).eq_of_reflect (build_succeeded otherBuilt) (Option.some.inj same)

/-- Witness: a shader with control characters and quotes in a source, a name outside the basic plane
and integers of many digits and below zero is read back; and two builds that differ only in their
common source have the same reflection.
-/
theorem reflection_reads_back_escaped
    : let shader : Shader := {
        stages := .ofList [
          (.fragment, { source := "\x00\"\\\x7f" }),
          (.unspecified, { inputs := [{ name := "é𝄞", location := -98765432109876543210 }] })]
        layout := { attributes := [{ name := "", type := .mat3, size := 3, offset := -7 }] } }
      let source := "vertex\x7bin vec3 a;\x7dfragment\x7bout vec4 c;\x7d"
      let longer := "glsl_common\x7bb\x7d" ++ source
      (∃ text document,
        shader.reflectionText? "\t" true = some text
        ∧ (∀ c ∈ text.toList, c.toNat < 128)
        ∧ text = document ++ "\n"
        ∧ Json.decode? document = some (shader.reflect "\t" true))
      ∧ build {} source ≠ build {} longer
      ∧ (build {} source).shader.reflectionText? "" true
        = (build {} longer).shader.reflectionText? "" true
      ∧ (build {} source).shader.stages = (build {} longer).shader.stages := by
  intro shader source longer
  obtain ⟨reads, injective⟩ := reflection_reads_back
  have writable : shader.Writable := by
    refine ⟨?_, ?_, ?_⟩ <;> decide +kernel
  have builtWritable : (build {} source).shader.Writable := by
    refine ⟨?_, ?_, ?_⟩ <;> decide +kernel
  obtain ⟨built, otherBuilt, different⟩
      : (build {} source).error = none
        ∧ (build {} longer).error = none
        ∧ build {} source ≠ build {} longer := by
    decide +kernel
  have emits := builtWritable.reflectionText? "" true
  have otherEmits
      : (build {} longer).shader.reflectionText? "" true
        = (build {} source).shader.reflectionText? "" true := by
    have stages : (build {} longer).shader.stages = (build {} source).shader.stages := by
      decide +kernel
    have layout : (build {} longer).shader.layout = (build {} source).shader.layout := by
      decide +kernel
    have same
        : (build {} longer).shader.reflect "" true = (build {} source).shader.reflect "" true := by
      simp only [Shader.reflect, stages, layout]
    rw [Shader.reflectionText?, Shader.reflectionText?, Shader.reflectionText,
      Shader.reflectionText, same]
  obtain ⟨text, document, written, ascii, whole, _, decoded, _⟩ := reads shader "\t" true writable
  exact ⟨⟨text, document, written, ascii, whole, decoded⟩, different, otherEmits.symm,
    (injective {} {} source longer "" _ built otherBuilt emits (otherEmits.trans emits)).1⟩

end ShaderReflection
