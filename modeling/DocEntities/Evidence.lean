/-
This file holds evidence: what one source of knowledge says about an entity. The line of
code, the shape of the code and the tags of the comment each give evidence with any of
the fields missing. Evidence is layered: what the later layer says counts, and what it
leaves open stays as the earlier layer had it. Once a name is known, evidence turns into
an entity.
-/

import DocEntities.Entity
import DocEntities.Namepath

namespace DocEntities

/-- What is known of an entity so far. -/
structure Evidence where
  /-- The namepath that the code alone gives. It names the members of a class that its code
  declares; an entity is always stored under the namepath of its parts, `Evidence.key?`. -/
  codeId : Option String := none
  kind : Option Kind := none
  name : Option String := none
  container : Option String := none
  isInstanceMember : Option Bool := none
  inheritsFrom : Option String := none
  params : List Param := []
  returns : List Returned := []
  types : Option (List String) := none
  description : Option String := none
  summary : Option String := none
  deprecated : Option Bool := none
  inheritdoc : Option Bool := none
  source : Option Origin := none
  remarks : Remarks := Remarks.empty
  deriving DecidableEq, Repr, Inhabited

namespace Evidence

/-- Nothing is known. -/
def empty : Evidence := {}

/-- A list that counts only if it is not empty. -/
def preferred {α : Type} (earlier later : List α) : List α :=
  if later.isEmpty then earlier else later

/-- `later` laid over `earlier`: what `later` says counts, the rest stays. -/
def merge (earlier later : Evidence) : Evidence where
  codeId := later.codeId.or earlier.codeId
  kind := later.kind.or earlier.kind
  name := later.name.or earlier.name
  container := later.container.or earlier.container
  isInstanceMember := later.isInstanceMember.or earlier.isInstanceMember
  inheritsFrom := later.inheritsFrom.or earlier.inheritsFrom
  params := preferred earlier.params later.params
  returns := preferred earlier.returns later.returns
  types := later.types.or earlier.types
  description := later.description.or earlier.description
  summary := later.summary.or earlier.summary
  deprecated := later.deprecated.or earlier.deprecated
  inheritdoc := later.inheritdoc.or earlier.inheritdoc
  source := later.source.or earlier.source
  remarks := earlier.remarks.merge later.remarks

/-- The namepath that the parts give, if a name is known. -/
def key? (evidence : Evidence) : Option String :=
  evidence.name.map fun name =>
    Namepath.ofParts evidence.container name (evidence.isInstanceMember.getD false) evidence.kind

/-- The entity that the evidence describes, if a name is known. -/
def toEntity? (evidence : Evidence) : Option Entity :=
  evidence.name.map fun name =>
    { id := Namepath.ofParts evidence.container name (evidence.isInstanceMember.getD false)
        evidence.kind
      kind := evidence.kind
      name := name
      container := evidence.container.filter (fun owner => !owner.isEmpty)
      isInstanceMember := evidence.isInstanceMember.getD false
      inheritsFrom := evidence.inheritsFrom
      params := evidence.params
      returns := evidence.returns
      types := evidence.types
      description := evidence.description
      summary := evidence.summary
      deprecated := evidence.deprecated.getD false
      inheritdoc := evidence.inheritdoc.getD false
      source := evidence.source.getD {}
      remarks := evidence.remarks }

end Evidence

end DocEntities
