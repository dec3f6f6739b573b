/-
This file shows that one sweep is enough for the containers. A container that the container
rules have settled stays settled: only a function or a member becomes a namespace, and a settled
container is neither. A sweep settles the container of every entity, so whatever a later sweep
promotes, it promotes to a class, by inheritance.

Runs of promotions behind which nothing can be promoted end in one table, whatever they did on
the way. Sweeping to the end may therefore start from the table as it was, or from what a first
sweep left of it.
-/

import DocEntities.Proofs.ClosedForm

namespace DocEntities

namespace Resolved

/-! ### What the rules do to the entries -/

theorem entries_promote (state : Resolved) (id : String) (kind : Kind) :
    (state.promote id kind).table.entries = state.table.entries.map (fun entity =>
      entity.withKind (if entity.id = id then some kind else entity.kind)) := by
  have kept (unchanged : ∀ entity ∈ state.table.entries, entity.id = id →
      entity.kind = some kind) :
      state.table.entries = state.table.entries.map (fun entity =>
        entity.withKind (if entity.id = id then some kind else entity.kind)) := by
    refine ((List.map_congr_left (fun entity member => ?_)).trans (List.map_id _)).symm
    split
    · rename_i named
      rw [← unchanged entity member named, Entity.withKind_self, id_eq]
    · rfl
  cases found : state.table.get? id with
  | none =>
    simp only [promote, found]
    refine kept (fun entity member named => ?_)
    exact absurd (named ▸ List.mem_map_of_mem member) (Table.get?_eq_none_iff.mp found)
  | some stored =>
    obtain ⟨storedMember, rfl⟩ := Table.get?_eq_some_iff.mp found
    by_cases already : stored.kind = some kind
    · rw [promote_of_eq storedMember already]
      refine kept (fun entity member named => ?_)
      rw [Table.eq_of_mem_of_id_eq member storedMember named, already]
    · rw [promote_of_ne storedMember already, apply, Table.entries_setKind]
      refine List.map_congr_left (fun entity _ => ?_)
      split <;> rfl

/-- Promoting an entity if a rule applies to its kind. -/
theorem entries_promoteIf (state : Resolved) (id : String) (rule : Option Kind → Prop)
    [DecidablePred rule] (kind : Kind) :
    (if rule (state.table.kind? id) then state.promote id kind else state).table.entries =
      state.table.entries.map (fun entity =>
        entity.withKind
          (if entity.id = id ∧ rule entity.kind then some kind else entity.kind)) := by
  have applies (entity : Entity) (member : entity ∈ state.table.entries) (named : entity.id = id) :
      rule entity.kind ↔ rule (state.table.kind? id) := by
    rw [← named, kind?_of_mem member]
  split
  · rename_i ruled
    rw [entries_promote]
    refine List.map_congr_left (fun entity member => ?_)
    by_cases named : entity.id = id
    · rw [if_pos named, if_pos ⟨named, (applies entity member named).mpr ruled⟩]
    · rw [if_neg named, if_neg (fun both => named both.1)]
  · rename_i unruled
    refine ((List.map_congr_left (fun entity member => ?_)).trans (List.map_id _)).symm
    rw [if_neg (fun both => unruled ((applies entity member both.1).mp both.2)),
      Entity.withKind_self, id_eq]

/-- What the container rules make of the kind of a container. -/
def containerKind (instanceMember : Bool) : Option Kind → Option Kind
  | some .function | some .member | some .namespaceKind =>
    some (if instanceMember then .classKind else .namespaceKind)
  | kind => kind

theorem containerKind_eq (instanceMember : Bool) (kind : Option Kind) :
    (let named :=
      if kind = some .function ∨ kind = some .member then some .namespaceKind else kind
    if named = some .namespaceKind ∧ instanceMember = true then some .classKind else named) =
      containerKind instanceMember kind := by
  cases kind with
  | none => rfl
  | some kind => cases kind <;> cases instanceMember <;> rfl

/-- The container rules change the kind of the container and nothing else. -/
theorem entries_settleContainer (state : Resolved) (owner : String) (instanceMember : Bool) :
    (state.settleContainer owner instanceMember).table.entries =
      state.table.entries.map (fun entity =>
        entity.withKind
          (if entity.id = owner then containerKind instanceMember entity.kind
          else entity.kind)) := by
  have named := entries_promoteIf state owner
    (fun kind => kind = some .function ∨ kind = some .member) .namespaceKind
  have owned := entries_promoteIf (state.namespaceRule owner) owner
    (fun kind => kind = some .namespaceKind ∧ instanceMember = true) .classKind
  simp only [settleContainer, classRule, owned]
  simp only [namespaceRule, named, List.map_map]
  refine List.map_congr_left (fun entity _ => congrArg entity.withKind ?_)
  simp only [Entity.withKind_id, Entity.withKind_kind]
  by_cases isOwner : entity.id = owner
  · simp only [isOwner, true_and, if_true]
    exact containerKind_eq instanceMember entity.kind
  · simp only [isOwner, false_and, if_false]

/-! ### Containers that are settled -/

theorem containerKind_ne (instanceMember : Bool) (kind : Option Kind) :
    containerKind instanceMember kind ≠ some .function ∧
      containerKind instanceMember kind ≠ some .member ∧
      (instanceMember = true → containerKind instanceMember kind ≠ some .namespaceKind) := by
  unfold containerKind
  split <;> cases instanceMember <;> simp_all

end Resolved

namespace Table

/-- The container rules have nothing left to do to the container `owner` of an entity. -/
def SettledOwner (table : Table) (owner : String) (instanceMember : Bool) : Prop :=
  table.kind? owner ≠ some .function ∧ table.kind? owner ≠ some .member ∧
    (instanceMember = true → table.kind? owner ≠ some .namespaceKind)

/-- The container rules have nothing left to do: what contains an entity is neither a function
nor a member, and what contains an instance member is no namespace. -/
def ContainersSettled (table : Table) : Prop :=
  ∀ owner ∈ table.entries,
    (table.HasChild owner → owner.kind ≠ some .function ∧ owner.kind ≠ some .member) ∧
    (table.HasInstanceMember owner → owner.kind ≠ some .namespaceKind)

theorem containersSettled_iff {table : Table} :
    table.ContainersSettled ↔ ∀ child ∈ table.entries, ∀ owner, child.container = some owner →
      table.SettledOwner owner child.isInstanceMember := by
  constructor
  · intro settled child childMember owner contained
    cases found : table.get? owner with
    | none => simp [SettledOwner, kind?, found]
    | some entity =>
      obtain ⟨member, rfl⟩ := get?_eq_some_iff.mp found
      have kinds := settled entity member
      rw [SettledOwner, Resolved.kind?_of_mem member]
      refine ⟨(kinds.1 ⟨child, childMember, contained⟩).1,
        (kinds.1 ⟨child, childMember, contained⟩).2, fun instanceMember => ?_⟩
      exact kinds.2 ⟨child, childMember, contained, instanceMember⟩
  · intro settled owner member
    refine ⟨?_, ?_⟩
    · rintro ⟨child, childMember, contained⟩
      have kinds := settled child childMember owner.id contained
      rw [SettledOwner, Resolved.kind?_of_mem member] at kinds
      exact ⟨kinds.1, kinds.2.1⟩
    · rintro ⟨child, childMember, contained, instanceMember⟩
      have kinds := settled child childMember owner.id contained
      rw [SettledOwner, Resolved.kind?_of_mem member] at kinds
      exact kinds.2.2 instanceMember

theorem kind?_setKind_of_ne {table : Table} {id other : String} (different : other ≠ id)
    (kind : Option Kind) : (table.setKind id kind).kind? other = table.kind? other := by
  rw [kind?, get?_setKind, kind?]
  cases found : table.get? other with
  | none => rfl
  | some entity =>
    rw [Option.map_some, if_neg ((get?_eq_some_iff.mp found).2 ▸ different)]

theorem kind?_setKind_of_mem {table : Table} {entity : Entity} (member : entity ∈ table.entries)
    (kind : Option Kind) : (table.setKind entity.id kind).kind? entity.id = kind := by
  rw [kind?, get?_setKind, get?_of_mem member, Option.map_some, if_pos rfl]
  rfl

end Table

namespace Resolved

variable {state next : Resolved} {owner : String} {instanceMember : Bool}

/-- Behind the container rules, the container is settled. -/
theorem settledOwner_settleContainer (state : Resolved) (owner : String) (instanceMember : Bool) :
    (state.settleContainer owner instanceMember).table.SettledOwner owner instanceMember := by
  have kind : (state.settleContainer owner instanceMember).table.kind? owner =
      containerKind instanceMember (state.table.kind? owner) := by
    rw [Table.kind?, Table.get?_of_entries_map (fun _ => Entity.withKind_id _ _)
      (entries_settleContainer state owner instanceMember), Table.kind?]
    cases found : state.table.get? owner with
    | none => rfl
    | some entity =>
      simp only [Option.map_some, Option.bind_some, Entity.withKind_kind,
        if_pos (Table.get?_eq_some_iff.mp found).2]
  rw [Table.SettledOwner, kind]
  exact containerKind_ne instanceMember _

/-- A container that is settled stays so. -/
theorem Step.settledOwner (step : Step state next)
    (settled : state.table.SettledOwner owner instanceMember) :
    next.table.SettledOwner owner instanceMember := by
  obtain @⟨promotion, allowed⟩ := step
  by_cases same : owner = promotion.id
  · have isClass {entity : Entity} (member : entity ∈ state.table.entries) :
        (state.table.setKind entity.id (some .classKind)).SettledOwner entity.id
          instanceMember := by
      rw [Table.SettledOwner, Table.kind?_setKind_of_mem member]
      simp
    subst same
    cases allowed with
    | container _ ownerMember _ kind =>
      rw [Table.SettledOwner, kind?_of_mem ownerMember] at settled
      rcases kind with kind | kind
      · exact absurd kind settled.1
      · exact absurd kind settled.2.1
    | instanceOwner _ ownerMember _ _ _ => exact isClass ownerMember
    | inheritance linked _ _ => exact isClass linked.2.1
  · rw [Table.SettledOwner, apply, Table.kind?_setKind_of_ne same]
    exact settled

theorem Steps.settledOwner (steps : Steps state next)
    (settled : state.table.SettledOwner owner instanceMember) :
    next.table.SettledOwner owner instanceMember := by
  induction steps with
  | refl => exact settled
  | tail _ step inductionHypothesis => exact step.settledOwner inductionHypothesis

theorem settledOwner_settleEntity {child : Entity} (member : child ∈ state.table.entries)
    (contained : child.container = some owner) :
    (state.settleEntity child.id).table.SettledOwner owner child.isInstanceMember := by
  rw [settleEntity_of_mem member]
  have settled : (state.settleOwner child).table.SettledOwner owner child.isInstanceMember := by
    rw [settleOwner, contained]
    exact settledOwner_settleContainer state owner child.isInstanceMember
  obtain ⟨kind, moved⟩ := (steps_settleOwner member).mem member
  exact (steps_settleBase moved).settledOwner settled

/-- Going through entities settles the container of each of them. -/
theorem settledOwner_foldl {ids : List String} {child : Entity}
    (member : child ∈ state.table.entries) (visited : child.id ∈ ids)
    (contained : child.container = some owner) :
    (ids.foldl settleEntity state).table.SettledOwner owner child.isInstanceMember := by
  induction ids generalizing state child with
  | nil => cases visited
  | cons id rest inductionHypothesis =>
    rw [List.foldl_cons]
    rcases List.mem_cons.mp visited with rfl | later
    · exact (steps_foldl_settleEntity _ rest).settledOwner
        (settledOwner_settleEntity member contained)
    · obtain ⟨kind, moved⟩ := (steps_settleEntity state id).mem member
      have settled := inductionHypothesis moved later contained
      exact settled

/-- What is in the table behind a run was there before it, with a kind of its own. -/
theorem Steps.origin (steps : Steps state next) {present : Entity}
    (member : present ∈ next.table.entries) :
    ∃ entity ∈ state.table.entries, ∃ kind, entity.withKind kind = present := by
  induction steps generalizing present with
  | refl => exact ⟨present, member, present.kind, rfl⟩
  | tail _ step inductionHypothesis =>
    obtain @⟨promotion, -⟩ := step
    rw [apply, Table.entries_setKind] at member
    obtain ⟨middle, middleMember, rfl⟩ := List.mem_map.mp member
    obtain ⟨entity, before, kind, rfl⟩ := inductionHypothesis middleMember
    refine ⟨entity, before, ?_⟩
    split
    · exact ⟨some promotion.after, rfl⟩
    · exact ⟨kind, rfl⟩

theorem Steps.containersSettled (steps : Steps state next)
    (settled : state.table.ContainersSettled) : next.table.ContainersSettled := by
  rw [Table.containersSettled_iff] at settled ⊢
  intro child member owner contained
  obtain ⟨before, beforeMember, kind, rfl⟩ := steps.origin member
  exact steps.settledOwner (settled before beforeMember owner contained)

/-- One sweep settles all containers. -/
theorem containersSettled_sweep (state : Resolved) : state.sweep.table.ContainersSettled := by
  rw [Table.containersSettled_iff]
  intro child member owner contained
  obtain ⟨before, beforeMember, kind, rfl⟩ := (steps_sweep state).origin member
  have settled := settledOwner_foldl beforeMember (List.mem_map_of_mem beforeMember) contained
  exact settled

/-! ### Behind the first sweep -/

/-- One promotion to a class, by inheritance. -/
inductive InheritanceStep : Resolved → Resolved → Prop where
  | promote {state : Resolved} {known other : Entity} (linked : state.table.Linked known other)
      (knownKind : known.kind = some .classKind) (otherKind : other.kind ≠ some .classKind) :
      InheritanceStep state (state.apply ⟨other.id, other.kind, .classKind⟩)

/-- With settled containers, only the inheritance rule allows promotions. -/
theorem exists_linked_of_allowed (settled : state.table.ContainersSettled) {promotion : Promotion}
    (allowed : promotion.Allowed state.table) :
    ∃ known other, state.table.Linked known other ∧ known.kind = some .classKind ∧
      other.kind ≠ some .classKind ∧ promotion = ⟨other.id, other.kind, .classKind⟩ := by
  cases allowed with
  | @container child owner childMember ownerMember contained kind =>
    have kinds := (settled owner ownerMember).1 ⟨child, childMember, contained⟩
    rcases kind with kind | kind
    · exact absurd kind kinds.1
    · exact absurd kind kinds.2
  | @instanceOwner child owner childMember ownerMember contained instanceMember kind =>
    exact absurd kind
      ((settled owner ownerMember).2 ⟨child, childMember, contained, instanceMember⟩)
  | @inheritance known other linked knownKind otherKind =>
    exact ⟨known, other, linked, knownKind, otherKind, rfl⟩

theorem Steps.byInheritance (steps : Steps state next) (settled : state.table.ContainersSettled) :
    Relation.ReflTransGen InheritanceStep state next := by
  induction steps with
  | refl => exact .refl
  | tail before step inductionHypothesis =>
    obtain @⟨promotion, allowed⟩ := step
    obtain ⟨known, other, linked, knownKind, otherKind, rfl⟩ :=
      exists_linked_of_allowed (Steps.containersSettled before settled) allowed
    exact inductionHypothesis.tail (.promote linked knownKind otherKind)

/-- The container rules leave settled containers as they are. -/
theorem settleOwner_of_containersSettled (settled : state.table.ContainersSettled)
    {entity : Entity} (member : entity ∈ state.table.entries) :
    state.settleOwner entity = state := by
  unfold settleOwner
  split
  · rfl
  · rename_i owner contained
    obtain ⟨notFunction, notMember, notNamespace⟩ :=
      Table.containersSettled_iff.mp settled entity member owner contained
    have named : state.namespaceRule owner = state := by
      rw [namespaceRule, if_neg (not_or.mpr ⟨notFunction, notMember⟩)]
    rw [settleContainer, named, classRule, if_neg]
    exact fun both => notNamespace both.2 both.1

/-- Where the rules allow no promotion, a run makes none. -/
theorem Steps.eq_of_not_allowed (steps : Steps state next)
    (finished : ∀ promotion : Promotion, ¬ promotion.Allowed state.table) : next = state := by
  rcases Relation.ReflTransGen.cases_head steps with same | ⟨middle, step, -⟩
  · exact same.symm
  · obtain @⟨promotion, allowed⟩ := step
    exact absurd allowed (finished promotion)

theorem settle_of_not_allowed (finished : ∀ promotion : Promotion, ¬ promotion.Allowed state.table)
    (rounds : Nat) : state.settle rounds = state :=
  (steps_settle rounds state).eq_of_not_allowed finished

/-- The promotions made before a run do not matter for it. -/
theorem Steps.behind {table : Table} (steps : Steps ⟨table, []⟩ state)
    (promotions : List Promotion) :
    Steps ⟨table, promotions⟩ ⟨state.table, promotions ++ state.promotions⟩ := by
  induction steps with
  | refl => rw [List.append_nil]
  | tail _ step inductionHypothesis =>
    obtain @⟨promotion, allowed⟩ := step
    refine inductionHypothesis.tail ?_
    rw [apply, ← List.append_assoc]
    exact .promote allowed

end Resolved

namespace Table

theorem eq_of_entries_eq {first second : Table} (entries : first.entries = second.entries)
    (collisions : first.collisions = second.collisions) : first = second := by
  have index : first.index = second.index := index_of_ids_eq (by rw [ids, entries, ids])
  obtain ⟨firstEntries, firstIndex, firstCollisions, firstFits⟩ := first
  obtain ⟨secondEntries, secondIndex, secondCollisions, secondFits⟩ := second
  obtain rfl : firstEntries = secondEntries := entries
  obtain rfl : firstIndex = secondIndex := index
  obtain rfl : firstCollisions = secondCollisions := collisions
  rfl

/-- Runs of promotions behind which nothing can be promoted end in one table. -/
theorem eq_of_finished {table : Table} {first second : Resolved}
    (firstSteps : Resolved.Steps ⟨table, []⟩ first)
    (firstFinished : ∀ promotion : Promotion, ¬ promotion.Allowed first.table)
    (secondSteps : Resolved.Steps ⟨table, []⟩ second)
    (secondFinished : ∀ promotion : Promotion, ¬ promotion.Allowed second.table) :
    first.table = second.table := by
  refine eq_of_entries_eq ?_ (firstSteps.entries_eq.2.trans secondSteps.entries_eq.2.symm)
  rw [firstSteps.entries_eq.1, secondSteps.entries_eq.1]
  refine List.map_congr_left (fun entity member => ?_)
  have firstKind := kindOf_eq_endKind firstSteps firstFinished member
  have secondKind := kindOf_eq_endKind secondSteps secondFinished member
  rw [Promotion.replay_eq_withKind, Promotion.replay_eq_withKind second.promotions]
  exact congrArg entity.withKind (firstKind.trans secondKind.symm)

/-- Where no entity inherits from another one of the table, nothing can be promoted behind the
first sweep. -/
theorem not_allowed_sweep_of_unlinked {table : Table}
    (unlinked : ∀ entity ∈ table.entries, ∀ base, entity.inheritsFrom = some base →
      base ∉ table.ids) (promotion : Promotion) :
    ¬ promotion.Allowed (table.resolve .singleSweep).table := by
  intro allowed
  have steps := Resolved.steps_resolve table .singleSweep
  have settled : (table.resolve .singleSweep).table.ContainersSettled :=
    Resolved.containersSettled_sweep ⟨table, []⟩
  obtain ⟨_, _, ⟨knownMember, otherMember, inherits⟩, -⟩ :=
    Resolved.exists_linked_of_allowed settled allowed
  obtain ⟨known, knownBefore, knownKind, rfl⟩ := steps.origin knownMember
  obtain ⟨other, otherBefore, otherKind, rfl⟩ := steps.origin otherMember
  rcases inherits with inherits | inherits
  · exact unlinked known knownBefore other.id inherits (List.mem_map_of_mem otherBefore)
  · exact unlinked other otherBefore known.id inherits (List.mem_map_of_mem knownBefore)

end Table

/-- One sweep settles all containers: behind it nothing that contains an entity is a function or
a member, and nothing that contains an instance member is a namespace. So every later sweep is a
run of promotions to class by inheritance, in which the container rules change nothing. Where no
entity inherits from another one of the table, the first sweep is all there is to do; and sweeping
to the end leaves the same table whether or not a single sweep came before. -/
theorem one_sweep_settles_containers :
    (∀ state : Resolved, state.sweep.table.ContainersSettled) ∧
    (∀ (state : Resolved) (rounds : Nat),
      let later := Resolved.sweep^[rounds + 1] state
      Relation.ReflTransGen Resolved.InheritanceStep later later.sweep ∧
        ∀ now, Resolved.Steps later now → ∀ entity ∈ now.table.entries,
          now.settleOwner entity = now) ∧
    (∀ table : Table,
      (∀ entity ∈ table.entries, ∀ base, entity.inheritsFrom = some base → base ∉ table.ids) →
        table.resolve .singleSweep = table.resolve .fixedPoint) ∧
    ∀ table : Table, ((table.resolve .singleSweep).table.resolve .fixedPoint).table =
      (table.resolve .fixedPoint).table := by
  refine ⟨Resolved.containersSettled_sweep, fun state rounds => ?_, fun table unlinked => ?_,
    fun table => ?_⟩
  · have settled : (Resolved.sweep^[rounds + 1] state).table.ContainersSettled := by
      rw [Function.iterate_succ_apply']
      exact Resolved.containersSettled_sweep _
    refine ⟨(Resolved.steps_sweep _).byInheritance settled, fun now steps entity member => ?_⟩
    exact Resolved.settleOwner_of_containersSettled (steps.containersSettled settled) member
  · have finished := Table.not_allowed_sweep_of_unlinked unlinked
    simp only [Table.resolve, Resolved.settle] at finished ⊢
    split
    · rfl
    · exact (Resolved.settle_of_not_allowed finished table.room).symm
  · have first := Resolved.steps_resolve table .singleSweep
    have second := Resolved.steps_resolve (table.resolve .singleSweep).table .fixedPoint
    have both := first.trans (second.behind (table.resolve .singleSweep).promotions)
    have same := Table.eq_of_finished both
      (Resolved.sweepsTo_resolve (table.resolve .singleSweep).table).not_allowed
      (Resolved.steps_resolve table .fixedPoint) (Resolved.sweepsTo_resolve table).not_allowed
    exact same

/-- `B` becomes a class in two steps, and what `A` inherits from is not in the table. -/
def orphanTable : Table := .ofList
  [{ id := "A", name := "A", kind := some .function, inheritsFrom := some "X", source := {} },
   { id := "B#c", name := "c", container := some "B", isInstanceMember := true, source := {} },
   { id := "B", name := "B", kind := some .function, source := {} }]

theorem one_sweep_settles_orphanTable :
    (∀ entity ∈ orphanTable.entries, ∀ base, entity.inheritsFrom = some base →
      base ∉ orphanTable.ids) ∧
    orphanTable.resolve .singleSweep = orphanTable.resolve .fixedPoint ∧
    (orphanTable.resolve .singleSweep).promotions =
      [⟨"B", some .function, .namespaceKind⟩, ⟨"B", some .namespaceKind, .classKind⟩] := by
  have unlinked : ∀ entity ∈ orphanTable.entries, ∀ base, entity.inheritsFrom = some base →
      base ∉ orphanTable.ids := by
    have bases : orphanTable.entries.map Entity.inheritsFrom = [some "X", none, none] := by decide
    intro entity member base inherits
    have found := List.mem_map_of_mem (f := Entity.inheritsFrom) member
    rw [bases, inherits] at found
    obtain rfl : base = "X" := by simpa using found
    decide
  exact ⟨unlinked, one_sweep_settles_containers.2.2.1 orphanTable unlinked, by decide⟩

end DocEntities
