/-
This file holds the table of documented entities. Entities stand in the order in which
their namepaths were first written, and an index gives the place of each namepath; every
look-up goes through the index. Writing a namepath again replaces the entity where it stands
and records a collision, so that nothing is lost unseen. A table carries the proof that its
index and its entities agree, so no look-up can miss, and no two entities share a namepath.
-/

import DocEntities.Entity
import Std.Data.ExtTreeMap

namespace DocEntities

/-- A namepath that was written a second time. -/
structure Collision where
  id : String
  /-- Where the replaced entity was defined. -/
  previous : Origin
  /-- Where the entity that replaced it is defined. -/
  replacement : Origin
  deriving DecidableEq, Repr, Inhabited

/-- The entity with another kind. -/
def Entity.withKind (entity : Entity) (kind : Option Kind) : Entity :=
  { entity with kind := kind }

/-! ### Places of namepaths -/

/-- The places of namepaths in a list. -/
abbrev Index := Std.ExtTreeMap String Nat

/-- Whether an index gives the place of each namepath of a list, and of no other. -/
def Index.Fits (index : Index) (ids : List String) : Prop :=
  ∀ (id : String) (place : Nat), index[id]? = some place ↔ ids[place]? = some id

theorem Index.fits_nil : Index.Fits ∅ [] := by
  intro id place
  simp

/-- A namepath that is not there yet gets the place behind all others. -/
theorem Index.Fits.push {index : Index} {ids : List String} {id : String}
    (fits : index.Fits ids) (absent : index[id]? = none) :
    Index.Fits (index.insert id ids.length) (ids ++ [id]) := by
  intro other place
  have missing : ids[place]? ≠ some id := by
    intro present
    rw [(fits id place).mpr present] at absent
    cases absent
  rw [Std.ExtTreeMap.getElem?_insert, List.getElem?_append]
  by_cases same : id = other
  · subst same
    simp only [Std.LawfulEqCmp.compare_eq_iff_eq, if_true]
    by_cases inside : place < ids.length
    · simp only [if_pos inside, missing, iff_false, Option.some.injEq]
      omega
    · rw [if_neg inside, Option.some.injEq, List.getElem?_eq_some_iff]
      constructor
      · intro last
        exact ⟨by simp; omega, by simp⟩
      · rintro ⟨bound, -⟩
        simp at bound
        omega
  · rw [if_neg (by simpa using same), fits other place]
    by_cases inside : place < ids.length
    · rw [if_pos inside]
    · rw [if_neg inside, List.getElem?_eq_none (by omega)]
      constructor
      · intro impossible
        cases impossible
      · intro last
        obtain ⟨bound, value⟩ := List.getElem?_eq_some_iff.mp last
        exact absurd (by simpa using value) same

/-- Two places of one namepath are one place. -/
theorem Index.Fits.nodup {index : Index} {ids : List String} (fits : index.Fits ids) :
    ids.Nodup := by
  refine List.pairwise_iff_getElem.mpr (fun first second firstBound secondBound before equal => ?_)
  have atFirst := (fits ids[second] first).mpr (by rw [List.getElem?_eq_getElem firstBound, equal])
  rw [(fits ids[second] second).mpr (List.getElem?_eq_getElem secondBound)] at atFirst
  simp only [Option.some.injEq] at atFirst
  omega

/-! ### Tables -/

/-- Entities by namepath, in the order of first insertion, and the collisions so far. -/
structure Table where
  entries : List Entity
  index : Index
  collisions : List Collision
  fits : index.Fits (entries.map Entity.id)
  deriving DecidableEq, Repr

namespace Table

/-- The table without entities. -/
def empty : Table :=
  ⟨[], ∅, [], Index.fits_nil⟩

instance : Inhabited Table :=
  ⟨empty⟩

/-- The namepaths in table order. -/
def ids (table : Table) : List String :=
  table.entries.map Entity.id

/-- How many entities the table holds. -/
def size (table : Table) : Nat :=
  table.entries.length

/-- The position of a namepath in table order. -/
def position? (table : Table) (id : String) : Option Nat :=
  table.index[id]?

/-- The entity stored under a namepath. -/
def get? (table : Table) (id : String) : Option Entity :=
  (table.position? id).bind (fun place => table.entries[place]?)

/-- Whether a namepath is in the table. -/
def contains (table : Table) (id : String) : Bool :=
  table.index.contains id

/-- Putting an entity in a place of its namepath keeps the namepaths as they are. -/
theorem ids_set {table : Table} {entity : Entity} {place : Nat}
    (found : table.index[entity.id]? = some place) :
    (table.entries.set place entity).map Entity.id = table.entries.map Entity.id := by
  rw [List.map_set]
  refine List.ext_getElem? (fun other => ?_)
  rw [List.getElem?_set]
  by_cases same : place = other
  · subst same
    rw [(table.fits entity.id place).mp found]
    have bound := (List.getElem?_eq_some_iff.mp ((table.fits entity.id place).mp found)).1
    rw [if_pos rfl, if_pos bound]
  · rw [if_neg same]

theorem ids_modify (entries : List Entity) (place : Nat) (kind : Option Kind) :
    (entries.modify place (·.withKind kind)).map Entity.id = entries.map Entity.id := by
  refine List.ext_getElem? (fun other => ?_)
  rw [List.getElem?_map, List.getElem?_map, List.getElem?_modify]
  cases entries[other]? with
  | none => rfl
  | some entity =>
    simp only [Option.map_some]
    split <;> rfl

/-- Stores an entity under its namepath. What was stored there before is replaced where it
stands, and the collision is recorded. -/
def insert (table : Table) (entity : Entity) : Table where
  entries :=
    match table.position? entity.id with
    | some place => table.entries.set place entity
    | none => table.entries ++ [entity]
  index :=
    match table.position? entity.id with
    | some _ => table.index
    | none => table.index.insert entity.id table.entries.length
  collisions :=
    match table.get? entity.id with
    | some previous =>
      table.collisions ++ [⟨previous.id, previous.source, entity.source⟩]
    | none => table.collisions
  fits := by
    unfold position?
    cases found : table.index[entity.id]? with
    | some place =>
      show table.index.Fits ((table.entries.set place entity).map Entity.id)
      rw [ids_set found]
      exact table.fits
    | none =>
      show Index.Fits _ ((table.entries ++ [entity]).map Entity.id)
      rw [List.map_append, ← List.length_map Entity.id]
      exact table.fits.push found

/-- Stores entities one after the other. -/
def insertAll (table : Table) (entities : List Entity) : Table :=
  entities.foldl insert table

/-- The table of a list of entities. -/
def ofList (entities : List Entity) : Table :=
  empty.insertAll entities

/-- Takes in another table: its collisions, then its entities in their order. -/
def extend (table other : Table) : Table :=
  insertAll { table with collisions := table.collisions ++ other.collisions } other.entries

/-- Gives the entity of a namepath another kind. Nothing else changes. -/
def setKind (table : Table) (id : String) (kind : Option Kind) : Table where
  entries :=
    match table.position? id with
    | some place => table.entries.modify place (·.withKind kind)
    | none => table.entries
  index := table.index
  collisions := table.collisions
  fits := by
    split
    · rw [ids_modify]
      exact table.fits
    · exact table.fits

/-- The kind of the entity of a namepath, if there is one. -/
def kind? (table : Table) (id : String) : Option Kind :=
  (table.get? id).bind Entity.kind

end Table

end DocEntities
