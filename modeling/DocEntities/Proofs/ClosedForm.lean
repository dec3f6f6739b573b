/-
This file gives the kinds that sweeping to the end leaves, without any sweep. Kinds spread
along inheritance: an entity ends as a class exactly if a seed is connected to it, a seed being
an entity that the table shows to be a class by itself. What is left of the functions and
members ends as a namespace if it contains something, and every other kind stays.

Soundness is an invariant of single promotions: no entity ever has a kind that is not
justified by the kinds at the start. Completeness comes from the end of the loop, where the
rules allow no promotion: a seed that is no class, or a link out of the classes, would allow
one.
-/

import DocEntities.Proofs.Promotion

namespace DocEntities

/-- The kind that the promotions so far have left an entity. -/
def Resolved.kindOf (state : Resolved) (entity : Entity) : Option Kind :=
  (Promotion.replay state.promotions entity).kind

namespace Table

/-! ### The kinds at the end -/

/-- An entity that contains another one. -/
def HasChild (table : Table) (owner : Entity) : Prop :=
  ∃ child ∈ table.entries, child.container = some owner.id

/-- An entity that contains an instance member. -/
def HasInstanceMember (table : Table) (owner : Entity) : Prop :=
  ∃ child ∈ table.entries, child.container = some owner.id ∧ child.isInstanceMember = true

/-- An entity that is a class, or must be one because it contains an instance member. -/
def IsSeed (table : Table) (entity : Entity) : Prop :=
  entity.kind = some .classKind ∨
    ((entity.kind = some .function ∨ entity.kind = some .member ∨
        entity.kind = some .namespaceKind) ∧ table.HasInstanceMember entity)

/-- An entity that is a seed, or connected to one by inheritance in either direction. -/
def EndsAsClass (table : Table) (entity : Entity) : Prop :=
  ∃ seed ∈ table.entries, table.IsSeed seed ∧ Relation.ReflTransGen table.Linked seed entity

/-- A function or member that contains something. -/
def EndsAsNamespace (table : Table) (entity : Entity) : Prop :=
  (entity.kind = some .function ∨ entity.kind = some .member) ∧ table.HasChild entity

open Classical in
/-- The kind of an entity when all promotions are made. -/
noncomputable def endKind (table : Table) (entity : Entity) : Option Kind :=
  if table.EndsAsClass entity then some .classKind
  else if table.EndsAsNamespace entity then some .namespaceKind
  else entity.kind

/-! ### Soundness -/

/-- A kind that an entity may have on the way. -/
def Justified (table : Table) (entity : Entity) (kind : Option Kind) : Prop :=
  kind = entity.kind ∨ (kind = some .namespaceKind ∧ table.EndsAsNamespace entity) ∨
    (kind = some .classKind ∧ table.EndsAsClass entity)

theorem endsAsClass_of_seed {table : Table} {entity : Entity} (member : entity ∈ table.entries)
    (seed : table.IsSeed entity) : table.EndsAsClass entity :=
  ⟨entity, member, seed, .refl⟩

theorem EndsAsClass.link {table : Table} {known other : Entity} (ends : table.EndsAsClass known)
    (linked : table.Linked known other) : table.EndsAsClass other := by
  obtain ⟨seed, member, isSeed, chain⟩ := ends
  exact ⟨seed, member, isSeed, chain.tail linked⟩

/-- A kind below namespace is the kind at the start. -/
theorem Justified.eq_of_ne {table : Table} {entity : Entity} {kind : Option Kind}
    (justified : table.Justified entity kind) (notNamespace : kind ≠ some .namespaceKind)
    (notClass : kind ≠ some .classKind) : entity.kind = kind := by
  rcases justified with same | ⟨same, -⟩ | ⟨same, -⟩
  · exact same.symm
  · exact absurd same notNamespace
  · exact absurd same notClass

theorem Justified.endsAsClass {table : Table} {entity : Entity} (member : entity ∈ table.entries)
    (justified : table.Justified entity (some .classKind)) : table.EndsAsClass entity := by
  rcases justified with same | ⟨other, -⟩ | ⟨-, ends⟩
  · exact endsAsClass_of_seed member (Or.inl same.symm)
  · cases other
  · exact ends

/-- A namespace that contains an instance member was a seed from the start. -/
theorem Justified.isSeed {table : Table} {entity : Entity}
    (justified : table.Justified entity (some .namespaceKind))
    (owns : table.HasInstanceMember entity) : table.IsSeed entity := by
  rcases justified with same | ⟨-, kind | kind, -⟩ | ⟨other, -⟩
  · exact Or.inr ⟨Or.inr (Or.inr same.symm), owns⟩
  · exact Or.inr ⟨Or.inl kind, owns⟩
  · exact Or.inr ⟨Or.inr (Or.inl kind), owns⟩
  · cases other

section

variable {table : Table} {state : Resolved} (steps : Resolved.Steps ⟨table, []⟩ state)

include steps

/-- What is in the table on the way was there at the start, with a kind of its own. -/
theorem origin_of_steps {present : Entity} (member : present ∈ state.table.entries) :
    ∃ entity ∈ table.entries,
      entity.withKind (state.kindOf entity) = present := by
  rw [steps.entries_eq.1] at member
  obtain ⟨entity, before, replayed⟩ := List.mem_map.mp member
  exact ⟨entity, before, (Promotion.replay_eq_withKind _ entity).symm.trans replayed⟩

theorem mem_of_steps {entity : Entity} (member : entity ∈ table.entries) :
    entity.withKind (state.kindOf entity) ∈ state.table.entries := by
  rw [steps.entries_eq.1, Resolved.kindOf, ← Promotion.replay_eq_withKind]
  exact List.mem_map_of_mem member

/-- A promotion that the rules allow on the way gives a kind that is justified. -/
theorem justified_after
    (justified : ∀ entity ∈ table.entries,
      table.Justified entity (state.kindOf entity))
    {promotion : Promotion} (allowed : promotion.Allowed state.table) {entity : Entity}
    (member : entity ∈ table.entries) (named : entity.id = promotion.id) :
    table.Justified entity (some promotion.after) := by
  have known := justified entity member
  cases allowed with
  | container childMember ownerMember contained kind =>
    obtain ⟨child, childBefore, rfl⟩ := origin_of_steps steps childMember
    obtain ⟨owner, ownerBefore, rfl⟩ := origin_of_steps steps ownerMember
    obtain rfl := eq_of_mem_of_id_eq member ownerBefore named
    rw [Entity.withKind_kind] at kind
    have same := known.eq_of_ne (by rcases kind with kind | kind <;> simp [kind])
      (by rcases kind with kind | kind <;> simp [kind])
    exact Or.inr (Or.inl ⟨rfl, same ▸ kind, child, childBefore, contained⟩)
  | instanceOwner childMember ownerMember contained instanceMember kind =>
    obtain ⟨child, childBefore, rfl⟩ := origin_of_steps steps childMember
    obtain ⟨owner, ownerBefore, rfl⟩ := origin_of_steps steps ownerMember
    obtain rfl := eq_of_mem_of_id_eq member ownerBefore named
    rw [Entity.withKind_kind] at kind
    rw [kind] at known
    have seed := known.isSeed ⟨child, childBefore, contained, instanceMember⟩
    exact Or.inr (Or.inr ⟨rfl, endsAsClass_of_seed member seed⟩)
  | inheritance linked knownKind otherKind =>
    obtain ⟨classMember, otherMember, inherits⟩ := linked
    obtain ⟨classEntity, classBefore, rfl⟩ := origin_of_steps steps classMember
    obtain ⟨other, otherBefore, rfl⟩ := origin_of_steps steps otherMember
    obtain rfl := eq_of_mem_of_id_eq member otherBefore named
    have ends := justified classEntity classBefore
    rw [Entity.withKind_kind] at knownKind
    rw [knownKind] at ends
    exact Or.inr (Or.inr ⟨rfl, (ends.endsAsClass classBefore).link ⟨classBefore, member, inherits⟩⟩)

/-- Every kind on the way is justified by the kinds at the start. -/
theorem justified_of_steps {entity : Entity} (member : entity ∈ table.entries) :
    table.Justified entity (state.kindOf entity) := by
  induction steps generalizing entity with
  | refl => exact Or.inl rfl
  | tail before step inductionHypothesis =>
    obtain @⟨promotion, allowed⟩ := step
    rw [Resolved.kindOf, Resolved.apply, Promotion.replay_concat, Promotion.change,
      Promotion.replay_id]
    split
    · rename_i named
      exact justified_after before (fun _ => inductionHypothesis) allowed member named
    · exact inductionHypothesis member

end

/-! ### Completeness -/

section

variable {table : Table} {state : Resolved} (steps : Resolved.Steps ⟨table, []⟩ state)
  (finished : ∀ promotion : Promotion, ¬ promotion.Allowed state.table)

include steps finished

/-- At the end, what contains something is neither a function nor a member. -/
theorem kindOf_ne_of_hasChild {owner : Entity} (member : owner ∈ table.entries)
    (owns : table.HasChild owner) :
    ¬ (state.kindOf owner = some .function ∨ state.kindOf owner = some .member) := by
  obtain ⟨child, childMember, contained⟩ := owns
  intro kind
  exact finished _ (.container (mem_of_steps steps childMember) (mem_of_steps steps member)
    contained kind)

/-- At the end, every seed is a class. -/
theorem kindOf_of_seed {seed : Entity} (member : seed ∈ table.entries)
    (isSeed : table.IsSeed seed) : state.kindOf seed = some .classKind := by
  rcases isSeed with isClass | ⟨kind, child, childMember, contained, instanceMember⟩
  · rcases justified_of_steps steps member with same | ⟨-, isFunction | isMember, -⟩ | ⟨same, -⟩
    · rw [same, isClass]
    · rw [isClass] at isFunction
      cases isFunction
    · rw [isClass] at isMember
      cases isMember
    · exact same
  · have notBelow := kindOf_ne_of_hasChild steps finished member ⟨child, childMember, contained⟩
    have notNamespace : state.kindOf seed ≠ some .namespaceKind := fun same =>
      finished _ (.instanceOwner (mem_of_steps steps childMember) (mem_of_steps steps member)
        contained instanceMember same)
    rcases justified_of_steps steps member with same | ⟨same, -⟩ | ⟨same, -⟩
    · rcases kind with kind | kind | kind
      · exact absurd (Or.inl (same.trans kind)) notBelow
      · exact absurd (Or.inr (same.trans kind)) notBelow
      · exact absurd (same.trans kind) notNamespace
    · exact absurd same notNamespace
    · exact same

/-- At the end, the classes are closed under inheritance, so they hold all that is connected
to a seed. -/
theorem kindOf_of_endsAsClass {entity : Entity} (ends : table.EndsAsClass entity) :
    state.kindOf entity = some .classKind := by
  obtain ⟨seed, member, isSeed, chain⟩ := ends
  induction chain with
  | refl => exact kindOf_of_seed steps finished member isSeed
  | @tail known other _ linked inductionHypothesis =>
    by_contra otherKind
    obtain ⟨knownMember, otherMember, inherits⟩ := linked
    exact finished _ (.inheritance
      ⟨mem_of_steps steps knownMember, mem_of_steps steps otherMember, inherits⟩
      inductionHypothesis otherKind)

theorem kindOf_eq_endKind {entity : Entity} (member : entity ∈ table.entries) :
    state.kindOf entity = table.endKind entity := by
  unfold endKind
  by_cases isClass : table.EndsAsClass entity
  · rw [if_pos isClass, kindOf_of_endsAsClass steps finished isClass]
  · rw [if_neg isClass]
    by_cases isNamespace : table.EndsAsNamespace entity
    · rw [if_pos isNamespace]
      have notBelow := kindOf_ne_of_hasChild steps finished member isNamespace.2
      rcases justified_of_steps steps member with same | ⟨same, -⟩ | ⟨-, ends⟩
      · exact absurd (same ▸ isNamespace.1) notBelow
      · exact same
      · exact absurd ends isClass
    · rw [if_neg isNamespace]
      rcases justified_of_steps steps member with same | ⟨-, ends⟩ | ⟨-, ends⟩
      · exact same
      · exact absurd ends isNamespace
      · exact absurd ends isClass

end

/-- Nothing is a class at the end that is not connected to a seed. -/
theorem endKind_eq_class_iff {table : Table} {entity : Entity} (member : entity ∈ table.entries) :
    table.endKind entity = some .classKind ↔ table.EndsAsClass entity := by
  unfold endKind
  by_cases isClass : table.EndsAsClass entity
  · exact iff_of_true (if_pos isClass) isClass
  · refine iff_of_false (fun kind => ?_) isClass
    rw [if_neg isClass] at kind
    split at kind
    · cases kind
    · exact isClass (endsAsClass_of_seed member (Or.inl kind))

/-- Sweeping to the end always ends. It changes kinds only, and the kind of every entity is
the one that its connections give. -/
theorem resolve_fixedPoint_closedForm (table : Table) :
    Resolved.SweepsTo ⟨table, []⟩ (table.resolve .fixedPoint) ∧
      (table.resolve .fixedPoint).table.entries =
        table.entries.map (fun entity => entity.withKind (table.endKind entity)) ∧
      (∀ entity ∈ table.entries,
        table.endKind entity = some .classKind ↔ table.EndsAsClass entity) ∧
      (∀ id, (table.resolve .fixedPoint).table.position? id = table.position? id) ∧
      (table.resolve .fixedPoint).table.collisions = table.collisions := by
  have loop := Resolved.sweepsTo_resolve table
  have steps := Resolved.steps_resolve table .fixedPoint
  have entries : (table.resolve .fixedPoint).table.entries =
      table.entries.map (fun entity => entity.withKind (table.endKind entity)) := by
    rw [steps.entries_eq.1]
    refine List.map_congr_left (fun entity member => ?_)
    rw [← kindOf_eq_endKind steps loop.not_allowed member, Resolved.kindOf,
      ← Promotion.replay_eq_withKind]
  have same : (table.resolve .fixedPoint).table.ids = table.ids := by
    rw [ids, entries, List.map_map]
    rfl
  refine ⟨loop, entries, fun entity member => endKind_eq_class_iff member, fun id => ?_,
    steps.entries_eq.2⟩
  rw [position?, index_of_ids_eq same, position?]

-- `A` stands before what makes it a class, so the first sweep passes it by.
example :
    let table := Table.ofList
      [{ id := "A", name := "A", kind := some .function, inheritsFrom := some "B", source := {} },
       { id := "B", name := "B", kind := some .function, source := {} },
       { id := "B#c", name := "c", container := some "B", isInstanceMember := true, source := {} }]
    (table.resolve .singleSweep).table.kind? "A" = some .function ∧
      (table.resolve .fixedPoint).table.kind? "A" = some .classKind := by
  decide

end Table

end DocEntities
