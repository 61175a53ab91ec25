import Mathlib.Data.List.Forall2
import ShaderReflection.Proofs.Stage.Interface

/-! Stages lose and invent nothing. Every declaration of a section becomes one variable of its stage
or none, as its qualifiers say, and what is noticed at it depends on it and on the names before it
only.
-/

namespace ShaderReflection

/-- What is noticed at the declaration at a position of a section: a location that is no integer,
then a name that occurs before it.
-/
def Stage.noticedAt (kind : StageKind) (declared : List Declaration) (i : Nat) : List Warning :=
  match declared[i]? with
  | none => []
  | some d =>
      let location := d.parameter .layout "location"
      (if location ≠ "" ∧ Text.integer? location = none then
          [.invalidLocation location d.name kind]
        else [])
        ++ if d.name ≠ "" ∧ ∃ e ∈ declared.take i, e.name = d.name then
            [.duplicateName d.name kind]
          else []

namespace Sections

/-- What is noticed at the declarations of a section, in their order, if the section has a source.
-/
def noticed (sections : Sections) (kind : StageKind) (name : Section) : List Warning :=
  let declared := sections.declarations.getD name []
  if (sections.sources.get? name).isSome then
    (List.range declared.length).flatMap (Stage.noticedAt kind declared)
  else []

end Sections

-----------------------------------------------------------------------------------------
-- Interfaces
-----------------------------------------------------------------------------------------

namespace Declaration

end Declaration

namespace Sections

end Sections

end ShaderReflection
