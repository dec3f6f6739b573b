/-
This file holds the entity: one documented construct with everything that is known of
it, stored under its namepath. Tags without a field of their own are kept as remarks,
one for each tag name, in the order of the names, so that equal sets of remarks are
equal values.
-/

import DocEntities.Kind

namespace DocEntities

/-- Where an entity was defined. -/
structure Origin where
  /-- The line of the documented code, counted from one. -/
  line : Nat := 0
  url : Option String := none
  name : Option String := none
  deriving DecidableEq, Repr, Inhabited

/-- What a tag without a field of its own says. -/
inductive Remark where
  | text (value : String)
  | flag (value : Bool)
  deriving DecidableEq, Repr, Inhabited

/-- A parameter of a function. -/
structure Param where
  types : Option (List String) := none
  name : Option String := none
  description : Option String := none
  optional : Bool := false
  deriving DecidableEq, Repr, Inhabited

/-- A parameter of which only the name is known. -/
def Param.named (name : String) : Param :=
  { name := some name }

/-- A value that a function returns. -/
structure Returned where
  types : Option (List String) := none
  description : Option String := none
  deriving DecidableEq, Repr, Inhabited

/-! ### Remarks -/

/-- Puts a value under a key of a list that ascends by key. -/
def putSorted (key : String) (value : Remark) : List (String × Remark) → List (String × Remark)
  | [] => [(key, value)]
  | (other, old) :: rest =>
    if key < other then (key, value) :: (other, old) :: rest
    else if key = other then (key, value) :: rest
    else (other, old) :: putSorted key value rest

theorem mem_putSorted {key : String} {value : Remark} {entries : List (String × Remark)}
    {entry : String × Remark} (member : entry ∈ putSorted key value entries) :
    entry.1 = key ∨ entry ∈ entries := by
  induction entries with
  | nil =>
    simp only [putSorted, List.mem_singleton] at member
    exact Or.inl (by rw [member])
  | cons head rest inductionHypothesis =>
    simp only [putSorted] at member
    split at member
    · rcases List.mem_cons.mp member with rfl | old
      · exact Or.inl rfl
      · exact Or.inr old
    · split at member
      · rcases List.mem_cons.mp member with rfl | old
        · exact Or.inl rfl
        · exact Or.inr (List.mem_cons_of_mem _ old)
      · rcases List.mem_cons.mp member with rfl | old
        · exact Or.inr List.mem_cons_self
        · rcases inductionHypothesis old with same | older
          · exact Or.inl same
          · exact Or.inr (List.mem_cons_of_mem _ older)

/-- Putting a value under a key keeps the keys ascending. -/
theorem putSorted_ascending (key : String) (value : Remark) {entries : List (String × Remark)}
    (ascending : entries.Pairwise (fun first second => first.1 < second.1)) :
    (putSorted key value entries).Pairwise (fun first second => first.1 < second.1) := by
  induction entries with
  | nil => simp [putSorted]
  | cons head rest inductionHypothesis =>
    obtain ⟨below, restAscending⟩ := List.pairwise_cons.mp ascending
    simp only [putSorted]
    split
    · rename_i before
      refine List.pairwise_cons.mpr ⟨?_, ascending⟩
      intro entry member
      rcases List.mem_cons.mp member with rfl | later
      · exact before
      · exact String.lt_trans before (below entry later)
    · split
      · rename_i same
        refine List.pairwise_cons.mpr ⟨?_, restAscending⟩
        intro entry member
        simpa [same] using below entry member
      · rename_i notBefore different
        refine List.pairwise_cons.mpr ⟨?_, inductionHypothesis restAscending⟩
        intro entry member
        rcases mem_putSorted member with same | old
        · rw [same]
          rcases String.le_total head.1 key with le | le
          · exact Std.lt_of_le_of_ne le (fun equal => different equal.symm)
          · exact absurd (Std.lt_of_le_of_ne le different) notBefore
        · exact below entry old

/-- The tags of an entity that have no field of their own, with what they say. -/
structure Remarks where
  entries : List (String × Remark)
  ascending : entries.Pairwise (fun first second => first.1 < second.1)
  deriving DecidableEq, Repr

namespace Remarks

/-- No remark. -/
def empty : Remarks :=
  ⟨[], List.Pairwise.nil⟩

instance : Inhabited Remarks :=
  ⟨empty⟩

/-- Puts a remark under a tag name; an earlier one of that name is lost. -/
def insert (remarks : Remarks) (key : String) (value : Remark) : Remarks :=
  ⟨putSorted key value remarks.entries, putSorted_ascending key value remarks.ascending⟩

/-- The remark under a tag name. -/
def get? (remarks : Remarks) (key : String) : Option Remark :=
  (remarks.entries.find? (fun entry => entry.1 == key)).map Prod.snd

/-- Puts every remark of `later` over those of `remarks`. -/
def merge (remarks later : Remarks) : Remarks :=
  later.entries.foldl (fun merged entry => merged.insert entry.1 entry.2) remarks

/-- The remarks of a list of pairs; of two with one key the later counts. -/
def ofList (entries : List (String × Remark)) : Remarks :=
  entries.foldl (fun remarks entry => remarks.insert entry.1 entry.2) empty

end Remarks

/-! ### Entities -/

/-- One documented construct. -/
structure Entity where
  id : String
  kind : Option Kind := none
  name : String
  container : Option String := none
  isInstanceMember : Bool := false
  inheritsFrom : Option String := none
  params : List Param := []
  returns : List Returned := []
  types : Option (List String) := none
  description : Option String := none
  summary : Option String := none
  deprecated : Bool := false
  inheritdoc : Bool := false
  source : Origin
  remarks : Remarks := Remarks.empty
  deriving DecidableEq, Repr

end DocEntities
