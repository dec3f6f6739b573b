/-
This file compares merging tables with storing entities one after the other. A table of a
file has already dropped what the file itself defines twice, and still it leaves the same mark:
the first occurrence of a namepath fixes its place, the last one what stands there, and every
other one is a collision. That account of a table, `Table.Collects`, is closed under merging, so
however tables are merged, the entries are those of one list of entities. Only what the
collisions say depends on the order of the merges.

Tables that share no namepath are merged without a collision, and then their entries stand
side by side.
-/

import DocEntities.Batch
import DocEntities.Proofs.Table
import Mathlib.Data.List.Nodup

namespace DocEntities

namespace Table

/-! ### Entries by namepath -/

/-- The entries of a table are what is found under its namepaths, in order. -/
theorem filterMap_get?_ids (table : Table) : table.ids.filterMap table.get? = table.entries := by
  have found : ∀ entity ∈ table.entries, (table.get? ∘ Entity.id) entity = some entity :=
    fun entity member => get?_of_mem member
  rw [ids, List.filterMap_map, List.filterMap_congr found, List.filterMap_some]

theorem entries_ext {first second : Table} (sameIds : first.ids = second.ids)
    (sameFound : ∀ id, first.get? id = second.get? id) : first.entries = second.entries := by
  rw [← filterMap_get?_ids first, ← filterMap_get?_ids second, sameIds, funext sameFound]

/-! ### What a table has of the entities stored in it -/

/-- A table gives account of entities that were stored in this order: each namepath has the
place of its first entity and holds its last one, and each entity that is not held any more has
left a collision. -/
structure Collects (table : Table) (entities : List Entity) : Prop where
  ids : table.ids = (entities.map Entity.id).eraseDups
  found : ∀ id, table.get? id = entities.reverse.find? (fun entity => entity.id = id)
  count : table.size + table.collisions.length = entities.length

namespace Collects

theorem ofList (entities : List Entity) : (Table.ofList entities).Collects entities where
  ids := ids_insertAll .empty entities
  found id := by
    rw [Table.ofList, get?_insertAll, show Table.empty.get? id = none from rfl, Option.or_none]
  count := by
    rw [Table.ofList, size_add_collisions_insertAll]
    exact Nat.zero_add _

variable {table other : Table} {entities later : List Entity}

/-- Taking in a table is storing all that was stored in it. -/
theorem extend (collects : table.Collects entities) (next : other.Collects later) :
    (table.extend other).Collects (entities ++ later) where
  ids := by
    have distinct := table.ids_nodup
    rw [collects.ids] at distinct
    rw [ids_extend, collects.ids, next.ids, List.map_append, eraseDups_append_eraseDups distinct]
  found id := by
    rw [get?_extend, collects.found, next.found, List.reverse_append, List.find?_append]
  count := by
    rw [size_add_collisions_extend, collects.count, next.count, List.length_append]

theorem extendAll (collects : table.Collects entities) (lists : List (List Entity)) :
    (table.extendAll (lists.map Table.ofList)).Collects (entities ++ lists.flatten) := by
  induction lists generalizing table entities with
  | nil =>
    rw [List.flatten_nil, List.append_nil]
    exact collects
  | cons list lists inductionHypothesis =>
    rw [List.flatten_cons, ← List.append_assoc]
    exact inductionHypothesis (collects.extend (.ofList list))

/-- The entities leave no choice for the entries, nor for the number of collisions. -/
theorem same (collects : table.Collects entities) (again : other.Collects entities) :
    table.ids = other.ids ∧ table.entries = other.entries ∧
      table.collisions.length = other.collisions.length := by
  have sameIds : table.ids = other.ids := collects.ids.trans again.ids.symm
  have sameEntries : table.entries = other.entries :=
    entries_ext sameIds fun id => (collects.found id).trans (again.found id).symm
  have counts := collects.count.trans again.count.symm
  rw [size, size, sameEntries] at counts
  exact ⟨sameIds, sameEntries, Nat.add_left_cancel counts⟩

end Collects

end Table

/-! ### Merges in any grouping -/

/-- How the tables of lists of entities are merged. -/
inductive Merging where
  /-- The table of a list, not merged with any other. -/
  | single (entities : List Entity)
  /-- The table of `first` takes in the table of `second`. -/
  | join (first second : Merging)
  deriving DecidableEq, Repr

namespace Merging

/-- The merged table. -/
def table : Merging → Table
  | single entities => .ofList entities
  | join first second => first.table.extend second.table

/-- The lists whose tables are merged, from left to right. -/
def lists : Merging → List (List Entity)
  | single entities => [entities]
  | join first second => first.lists ++ second.lists

theorem collects (merging : Merging) : merging.table.Collects merging.lists.flatten := by
  induction merging with
  | single entities =>
    rw [lists, List.flatten_singleton]
    exact .ofList entities
  | join first second firstHypothesis secondHypothesis =>
    rw [lists, List.flatten_append]
    exact firstHypothesis.extend secondHypothesis

end Merging

/-- Tables of lists of entities that are merged one after the other have the namepaths, the
entries and the number of collisions of one table in which all entities were stored one by one,
and so have tables that are merged in any other grouping. What the collisions say does depend on
the grouping. -/
theorem merging_is_flat_insertion :
    (∀ lists : List (List Entity),
      let merged := Table.empty.extendAll (lists.map Table.ofList)
      let flat := Table.ofList lists.flatten
      merged.ids = flat.ids ∧ merged.entries = flat.entries ∧
        merged.collisions.length = flat.collisions.length) ∧
    (∀ merging : Merging,
      let flat := Table.ofList merging.lists.flatten
      merging.table.ids = flat.ids ∧ merging.table.entries = flat.entries ∧
        merging.table.collisions.length = flat.collisions.length) ∧
    ∃ first second : Merging, first.lists = second.lists ∧
      ¬first.table.collisions.Perm second.table.collisions := by
  refine ⟨fun lists => ?_, fun merging => ?_, ?_⟩
  · have merged := (Table.Collects.ofList []).extendAll lists
    exact merged.same (.ofList lists.flatten)
  · exact merging.collects.same (.ofList merging.lists.flatten)
  · -- Three definitions of `a`: the first is replaced by the second, or at once by the third.
    let defined (line : Nat) : Merging :=
      .single [{ id := "a", name := "a", source := ⟨line, none, none⟩ }]
    refine ⟨.join (.join (defined 1) (defined 2)) (defined 3),
      .join (defined 1) (.join (defined 2) (defined 3)), rfl, ?_⟩
    decide

/-! ### Tables that share no namepath -/

namespace Table

/-- Entities with namepaths of their own are stored behind the others. -/
theorem insertAll_of_nodup {table : Table} {entities : List Entity}
    (distinct : (table.ids ++ entities.map Entity.id).Nodup) :
    (table.insertAll entities).entries = table.entries ++ entities ∧
      (table.insertAll entities).collisions = table.collisions := by
  induction entities generalizing table with
  | nil => exact ⟨(List.append_nil _).symm, rfl⟩
  | cons entity rest inductionHypothesis =>
    have fresh : entity.id ∉ table.ids := fun present =>
      (List.nodup_append.mp distinct).2.2 _ present _ List.mem_cons_self rfl
    have ids : (table.insert entity).ids = table.ids ++ [entity.id] := by
      rw [ids_insert, if_neg fresh]
    have moved : (table.insert entity).ids ++ rest.map Entity.id =
        table.ids ++ (entity :: rest).map Entity.id := by
      rw [ids, List.append_assoc, List.singleton_append, List.map_cons]
    obtain ⟨entries, collisions⟩ := inductionHypothesis (moved ▸ distinct)
    refine ⟨?_, ?_⟩
    · rw [insertAll_cons, entries, entries_insert_of_none (position?_eq_none_iff.mpr fresh),
        List.append_assoc, List.singleton_append]
    · rw [insertAll_cons, collisions, collisions_insert_of_none (get?_eq_none_iff.mpr fresh)]

theorem extend_of_disjoint {table other : Table} (apart : table.ids.Disjoint other.ids) :
    (table.extend other).entries = table.entries ++ other.entries ∧
      (table.extend other).collisions = table.collisions ++ other.collisions := by
  have distinct : (table.ids ++ other.ids).Nodup :=
    List.Nodup.append table.ids_nodup other.ids_nodup apart
  exact @insertAll_of_nodup { table with collisions := table.collisions ++ other.collisions }
    other.entries distinct

/-- Tables that share no namepath are put side by side, with their collisions. -/
theorem extendAll_of_disjoint {table : Table} {others : List Table}
    (apart : (table :: others).Pairwise fun first second => first.ids.Disjoint second.ids) :
    (table.extendAll others).entries = (table :: others).flatMap entries ∧
      (table.extendAll others).collisions = (table :: others).flatMap collisions := by
  induction others generalizing table with
  | nil => simp [extendAll]
  | cons other others inductionHypothesis =>
    obtain ⟨fromAll, rest⟩ := List.pairwise_cons.mp apart
    obtain ⟨fromOthers, othersApart⟩ := List.pairwise_cons.mp rest
    obtain ⟨entries, collisions⟩ := extend_of_disjoint (fromAll other List.mem_cons_self)
    have ids : (table.extend other).ids = table.ids ++ other.ids := by
      rw [Table.ids, entries, List.map_append, Table.ids, Table.ids]
    have mergedApart : ∀ further ∈ others, (table.extend other).ids.Disjoint further.ids := by
      intro further member
      rw [ids, List.disjoint_append_left]
      exact ⟨fromAll further (List.mem_cons_of_mem _ member), fromOthers further member⟩
    obtain ⟨allEntries, allCollisions⟩ :=
      inductionHypothesis (List.pairwise_cons.mpr ⟨mergedApart, othersApart⟩)
    refine ⟨?_, ?_⟩
    · rw [extendAll, List.foldl_cons, ← extendAll, allEntries]
      simp only [List.flatMap_cons, entries, List.append_assoc]
    · rw [extendAll, List.foldl_cons, ← extendAll, allCollisions]
      simp only [List.flatMap_cons, collisions, List.append_assoc]

end Table

end DocEntities
