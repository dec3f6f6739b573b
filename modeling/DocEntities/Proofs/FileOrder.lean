/-
This file shows when the order of the files of a batch makes no difference: if no two of them
define one namepath, and kinds are corrected to the end. Files that share no namepath are merged
into the same entries, in another order, and into the same collisions. A sweep goes through the
table in its order and a single one leaves kinds that depend on it, but where sweeping ends does
not: the kinds at the end are given by which entries there are.
-/

import DocEntities.Proofs.ClosedForm
import DocEntities.Proofs.CommentIndex
import DocEntities.Proofs.History
import DocEntities.Proofs.Merging

namespace DocEntities

namespace Table

/-! ### Tables with the same entries -/

/-- Two tables hold the same entries, in any order. -/
def SameEntries (first second : Table) : Prop :=
  ∀ entity, entity ∈ first.entries ↔ entity ∈ second.entries

namespace SameEntries

variable {first second : Table} (same : first.SameEntries second)

include same

theorem get?_eq (id : String) : first.get? id = second.get? id := by
  refine Option.ext fun entity => ?_
  rw [get?_eq_some_iff, get?_eq_some_iff, same entity]

theorem linked_eq : first.Linked = second.Linked := by
  funext known other
  rw [Linked, Linked, same known, same other]

theorem isSeed_iff (entity : Entity) : first.IsSeed entity ↔ second.IsSeed entity := by
  simp only [IsSeed, HasInstanceMember, same _]

theorem endsAsClass_iff (entity : Entity) :
    first.EndsAsClass entity ↔ second.EndsAsClass entity := by
  simp only [EndsAsClass, same _, same.isSeed_iff, same.linked_eq]

theorem endsAsNamespace_iff (entity : Entity) :
    first.EndsAsNamespace entity ↔ second.EndsAsNamespace entity := by
  simp only [EndsAsNamespace, HasChild, same _]

/-- The kinds at the end do not depend on the order of the entries. -/
theorem endKind_eq (entity : Entity) : first.endKind entity = second.endKind entity := by
  rw [endKind, endKind, propext (same.endsAsClass_iff entity),
    propext (same.endsAsNamespace_iff entity)]

end SameEntries

/-- What sweeping to the end leaves under a namepath. -/
theorem get?_resolve_fixedPoint (table : Table) (id : String) :
    (table.resolve .fixedPoint).table.get? id =
      (table.get? id).map fun entity => entity.withKind (table.endKind entity) := by
  have steps := Resolved.steps_resolve table .fixedPoint
  have finished := (Resolved.sweepsTo_resolve table).not_allowed
  rw [get?_resolve]
  refine Option.map_congr fun entity found => ?_
  have member := (get?_eq_some_iff.mp found).1
  rw [Promotion.replay_eq_withKind, ← kindOf_eq_endKind steps finished member]
  rfl

theorem SameEntries.get?_resolve {first second : Table} (same : first.SameEntries second)
    (id : String) :
    (first.resolve .fixedPoint).table.get? id = (second.resolve .fixedPoint).table.get? id := by
  rw [get?_resolve_fixedPoint, get?_resolve_fixedPoint, same.get?_eq, funext same.endKind_eq]

/-- Tables that share no namepath may be merged in any order. -/
theorem extendAll_perm {tables permuted : List Table} (permutation : tables.Perm permuted)
    (apart : tables.Pairwise fun first second => first.ids.Disjoint second.ids) :
    (empty.extendAll tables).SameEntries (empty.extendAll permuted) ∧
      (empty.extendAll tables).collisions.Perm (empty.extendAll permuted).collisions := by
  have fromEmpty (others : List Table) : ∀ other ∈ others, empty.ids.Disjoint other.ids :=
    fun _ _ => List.disjoint_nil_left _
  have permutedApart : permuted.Pairwise fun first second => first.ids.Disjoint second.ids :=
    permutation.pairwise apart fun {_ _} disjoint => List.disjoint_symm disjoint
  obtain ⟨entries, collisions⟩ := extendAll_of_disjoint (.cons (fromEmpty tables) apart)
  obtain ⟨permutedEntries, permutedCollisions⟩ :=
    extendAll_of_disjoint (.cons (fromEmpty permuted) permutedApart)
  refine ⟨fun entity => ?_, ?_⟩
  · rw [entries, permutedEntries]
    exact ((permutation.cons empty).flatMap_right _).mem_iff
  · rw [collisions, permutedCollisions]
    exact (permutation.cons empty).flatMap_right _

end Table

/-! ### Batches of files -/

namespace Workspace

variable {workspace : Workspace} {options : Options} {baseUrl : Option String}
  {paths : List String} {tables : String → Table}

/-- Files that can all be read contribute their tables, in their order. -/
theorem exists_contributions
    (extracted : ∀ path ∈ paths,
      (workspace.contribution options baseUrl path).map Contribution.table = .ok (tables path)) :
    ∃ contributions, paths.mapM (workspace.contribution options baseUrl) = .ok contributions ∧
      contributions.map Contribution.table = paths.map tables := by
  induction paths with
  | nil => exact ⟨[], rfl, rfl⟩
  | cons path paths inductionHypothesis =>
    obtain ⟨contributions, read, same⟩ := inductionHypothesis fun other member =>
      extracted other (List.mem_cons_of_mem _ member)
    have here := extracted path List.mem_cons_self
    cases first : workspace.contribution options baseUrl path with
    | error failure =>
      rw [first] at here
      cases here
    | ok contribution =>
      rw [first] at here
      refine ⟨contribution :: contributions, ?_, ?_⟩
      · rw [List.mapM_cons, first, read]
        rfl
      · rw [List.map_cons, same, Except.ok.inj here, List.map_cons]

/-- The batch of files that can all be read. -/
theorem exists_batch
    (extracted : ∀ path ∈ paths,
      (workspace.contribution options baseUrl path).map Contribution.table = .ok (tables path)) :
    ∃ batch, workspace.documentFiles paths options baseUrl = .ok batch ∧
      batch.table =
        ((Table.empty.extendAll (paths.map tables)).resolve options.resolution).table := by
  obtain ⟨contributions, read, same⟩ := exists_contributions extracted
  refine ⟨.ofContributions contributions options.resolution, ?_, ?_⟩
  · rw [documentFiles, read]
    rfl
  · rw [Batch.ofContributions, same]

end Workspace

/-- If kinds are corrected to the end, and files that can all be read define no namepath twice
among them, the batch does not depend on the order of the files: the same entity is stored under
each namepath, with the same kind, and the same collisions are recorded. -/
theorem file_order_irrelevant {workspace : Workspace} {options : Options}
    {baseUrl : Option String} {paths permuted : List String} {tables : String → Table}
    (toTheEnd : options.resolution = .fixedPoint) (permutation : paths.Perm permuted)
    (extracted : ∀ path ∈ paths,
      (workspace.contribution options baseUrl path).map Contribution.table = .ok (tables path))
    (apart : paths.Pairwise fun first second =>
      (tables first).ids.Disjoint (tables second).ids) :
    ∃ batch permutedBatch, workspace.documentFiles paths options baseUrl = .ok batch ∧
      workspace.documentFiles permuted options baseUrl = .ok permutedBatch ∧
      (∀ id, batch.table.get? id = permutedBatch.table.get? id) ∧
      batch.table.collisions.Perm permutedBatch.table.collisions := by
  obtain ⟨batch, read, merged⟩ := Workspace.exists_batch extracted
  obtain ⟨permutedBatch, permutedRead, permutedMerged⟩ :=
    Workspace.exists_batch fun path member => extracted path (permutation.mem_iff.mpr member)
  obtain ⟨same, collisions⟩ :=
    Table.extendAll_perm (permutation.map tables) (List.pairwise_map.mpr apart)
  refine ⟨batch, permutedBatch, read, permutedRead, fun id => ?_, ?_⟩
  · rw [merged, permutedMerged, toTheEnd]
    exact same.get?_resolve id
  · rw [merged, permutedMerged, Table.collisions_resolve, Table.collisions_resolve]
    exact collisions

/-- In `a`, `A` inherits from `B`; in `b`, `B` inherits from `C`, which is a class. Whether one
sweep makes a class of `A` depends on which file comes first. -/
def chainFiles : Workspace where
  disk := .file "a" "/**@extends B*/\nA".toUTF8
    (.file "b" "/**@extends C*/\nB\n/**@class*/\nC".toUTF8 .empty)

/-- The namepaths of what a file contributes, as often as they are defined. -/
def Contribution.definedIds (contribution : Contribution) : List String :=
  (contribution.findings.filterMap Finding.entity?).map Entity.id

theorem Contribution.ids_table (contribution : Contribution) :
    contribution.table.ids = contribution.definedIds.eraseDups :=
  Table.ids_insertAll .empty _

theorem exists_chainContributions :
    ∃ first second, chainFiles.contribution { resolution := .fixedPoint } none "a" = .ok first ∧
      chainFiles.contribution { resolution := .fixedPoint } none "b" = .ok second ∧
      first.table.ids = ["A"] ∧ second.table.ids = ["B", "C"] := by
  have exists_of_map {read : Except Failure Contribution} {ids : List String}
      (computed : read.map Contribution.definedIds = .ok ids) :
      ∃ found, read = .ok found ∧ found.table.ids = ids.eraseDups := by
    cases read with
    | error failure => cases computed
    | ok found => exact ⟨found, rfl, by rw [found.ids_table, Except.ok.inj computed]⟩
  have computed : ["a", "b"].map (fun path => (chainFiles.contribution
      { resolution := .fixedPoint } none path).map Contribution.definedIds) =
      [.ok ["A"], .ok ["B", "C"]] := by
    simp only [Workspace.contribution, extractFindings, findingsOf, Surroundings.ofParsed,
      CommentIndex.collect_eq_insertionSort]
    decide +kernel
  simp only [List.map_cons, List.map_nil, List.cons.injEq, and_true] at computed
  obtain ⟨first, isFirst, firstIds⟩ := exists_of_map computed.1
  obtain ⟨second, isSecond, secondIds⟩ := exists_of_map computed.2
  exact ⟨first, second, isFirst, isSecond, firstIds, secondIds⟩

theorem file_order_irrelevant_chainFiles :
    ∃ tables : String → Table,
      (∀ path ∈ ["a", "b"], (chainFiles.contribution { resolution := .fixedPoint } none path).map
        Contribution.table = .ok (tables path)) ∧
      ["a", "b"].Pairwise (fun first second => (tables first).ids.Disjoint (tables second).ids) ∧
      ∃ batch permutedBatch,
        chainFiles.documentFiles ["a", "b"] { resolution := .fixedPoint } none = .ok batch ∧
        chainFiles.documentFiles ["b", "a"] { resolution := .fixedPoint } none =
          .ok permutedBatch ∧
        (∀ id, batch.table.get? id = permutedBatch.table.get? id) ∧
        batch.table.collisions.Perm permutedBatch.table.collisions := by
  obtain ⟨first, second, isFirst, isSecond, firstIds, secondIds⟩ := exists_chainContributions
  let tables (path : String) : Table := if path = "a" then first.table else second.table
  have extracted : ∀ path ∈ ["a", "b"],
      (chainFiles.contribution { resolution := .fixedPoint } none path).map Contribution.table =
        .ok (tables path) := by
    simp [tables, isFirst, isSecond, Except.map]
  have apart : ["a", "b"].Pairwise fun first second =>
      (tables first).ids.Disjoint (tables second).ids := by
    simp [tables, firstIds, secondIds, List.Disjoint]
  exact ⟨tables, extracted, apart,
    file_order_irrelevant rfl (List.Perm.swap "b" "a" []) extracted apart⟩

-- One sweep comes to `A` before it has made a class of `B`, or behind it.
example :
    let inheriting := Table.ofList
      [{ id := "A", name := "A", inheritsFrom := some "B", source := {} }]
    let base := Table.ofList
      [{ id := "B", name := "B", inheritsFrom := some "C", source := {} },
       { id := "C", name := "C", kind := some .classKind, source := {} }]
    ((Table.empty.extendAll [inheriting, base]).resolve .singleSweep).table.kind? "A" = none ∧
      ((Table.empty.extendAll [base, inheriting]).resolve .singleSweep).table.kind? "A" =
        some .classKind := by
  decide

end DocEntities
