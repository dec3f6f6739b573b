/-
This file says once what the correction of kinds can do. Every change is a promotion that one
of the three rules allows; a sweep, and a whole resolution, is a run of such promotions. What
a single promotion keeps is therefore kept by every resolution, and nothing later needs to
open the sweep.

A promotion takes room away from the table, so a run ends: the loop of sweeps stops with a
sweep that changes nothing, and then the rules allow no promotion any more.
-/

import DocEntities.Resolution
import DocEntities.Proofs.Table
import Mathlib.Logic.Relation
import Mathlib.Algebra.Order.BigOperators.Group.List
import Mathlib.Algebra.Order.Group.Nat

namespace DocEntities

/-! ### Promotions that the rules allow -/

/-- Two entities of a table of which one inherits from the other. -/
def Table.Linked (table : Table) (first second : Entity) : Prop :=
  first ∈ table.entries ∧ second ∈ table.entries ∧
    (first.inheritsFrom = some second.id ∨ second.inheritsFrom = some first.id)

/-- The promotions that the rules allow in a table. -/
inductive Promotion.Allowed (table : Table) : Promotion → Prop where
  /-- What contains an entity is no function and no member, but a namespace. -/
  | container {child owner : Entity} (childMember : child ∈ table.entries)
      (ownerMember : owner ∈ table.entries) (contained : child.container = some owner.id)
      (kind : owner.kind = some .function ∨ owner.kind = some .member) :
      Allowed table ⟨owner.id, owner.kind, .namespaceKind⟩
  /-- What contains an instance member is no namespace, but a class. -/
  | instanceOwner {child owner : Entity} (childMember : child ∈ table.entries)
      (ownerMember : owner ∈ table.entries) (contained : child.container = some owner.id)
      (instanceMember : child.isInstanceMember = true)
      (kind : owner.kind = some .namespaceKind) :
      Allowed table ⟨owner.id, owner.kind, .classKind⟩
  /-- What inherits from a class, or is inherited from by one, is a class. -/
  | inheritance {known other : Entity} (linked : table.Linked known other)
      (knownKind : known.kind = some .classKind) (otherKind : other.kind ≠ some .classKind) :
      Allowed table ⟨other.id, other.kind, .classKind⟩

/-- What is promoted is in the table, with the kind that it is promoted from. -/
theorem Promotion.Allowed.exists_entity {table : Table} {promotion : Promotion}
    (allowed : promotion.Allowed table) :
    ∃ entity ∈ table.entries, entity.id = promotion.id ∧ entity.kind = promotion.before := by
  cases allowed with
  | container _ ownerMember _ _ => exact ⟨_, ownerMember, rfl, rfl⟩
  | instanceOwner _ ownerMember _ _ _ => exact ⟨_, ownerMember, rfl, rfl⟩
  | inheritance linked _ _ => exact ⟨_, linked.2.1, rfl, rfl⟩

/-- The kind that an entity is promoted to has less room than the one before. -/
theorem Promotion.Allowed.kindRoom_lt {table : Table} {promotion : Promotion}
    (allowed : promotion.Allowed table) :
    kindRoom (some promotion.after) < kindRoom promotion.before := by
  cases allowed with
  | container _ _ _ kind => rcases kind with kind | kind <;> simp [kind, kindRoom]
  | instanceOwner _ _ _ _ kind => simp [kind, kindRoom]
  | @inheritance _ other _ _ otherKind =>
    show 0 < kindRoom other.kind
    revert otherKind
    cases other.kind with
    | none => simp [kindRoom]
    | some kind => cases kind <;> simp [kindRoom]

/-- An entity after a promotion, which may be about another one. -/
def Promotion.change (promotion : Promotion) (entity : Entity) : Entity :=
  if entity.id = promotion.id then entity.withKind (some promotion.after) else entity

/-- An entity after promotions that were made in order. -/
def Promotion.replay (promotions : List Promotion) (entity : Entity) : Entity :=
  promotions.foldl (fun entity promotion => promotion.change entity) entity

theorem Promotion.change_withKind (promotion : Promotion) (entity : Entity) (kind : Option Kind) :
    (promotion.change entity).withKind kind = entity.withKind kind := by
  unfold Promotion.change
  split <;> rfl

/-- Promotions change the kind of an entity and nothing else. -/
theorem Promotion.replay_withKind (promotions : List Promotion) (entity : Entity)
    (kind : Option Kind) :
    (Promotion.replay promotions entity).withKind kind = entity.withKind kind := by
  induction promotions generalizing entity with
  | nil => rfl
  | cons promotion rest inductionHypothesis =>
    exact (inductionHypothesis (promotion.change entity)).trans
      (promotion.change_withKind entity kind)

theorem Promotion.replay_eq_withKind (promotions : List Promotion) (entity : Entity) :
    Promotion.replay promotions entity =
      entity.withKind (Promotion.replay promotions entity).kind := by
  rw [← replay_withKind promotions entity, Entity.withKind_self]

theorem Promotion.replay_id (promotions : List Promotion) (entity : Entity) :
    (Promotion.replay promotions entity).id = entity.id := by
  rw [← Entity.withKind_id _ none, replay_withKind, Entity.withKind_id]

theorem Promotion.replay_source (promotions : List Promotion) (entity : Entity) :
    (Promotion.replay promotions entity).source = entity.source := by
  rw [← Entity.withKind_source _ none, replay_withKind, Entity.withKind_source]

theorem Promotion.replay_concat (promotions : List Promotion) (promotion : Promotion)
    (entity : Entity) :
    Promotion.replay (promotions ++ [promotion]) entity =
      promotion.change (Promotion.replay promotions entity) := by
  rw [replay, List.foldl_append]
  rfl

namespace Resolved

/-- Makes a promotion. -/
def apply (state : Resolved) (promotion : Promotion) : Resolved where
  table := state.table.setKind promotion.id (some promotion.after)
  promotions := state.promotions ++ [promotion]

/-- One promotion that the rules allow. -/
inductive Step : Resolved → Resolved → Prop where
  | promote {state : Resolved} {promotion : Promotion}
      (allowed : promotion.Allowed state.table) : Step state (state.apply promotion)

/-- A run of promotions that the rules allow. -/
abbrev Steps : Resolved → Resolved → Prop :=
  Relation.ReflTransGen Step

/-- Promoting a stored entity of another kind is making a promotion. -/
theorem promote_of_ne {state : Resolved} {entity : Entity} {kind : Kind}
    (member : entity ∈ state.table.entries) (different : entity.kind ≠ some kind) :
    state.promote entity.id kind = state.apply ⟨entity.id, entity.kind, kind⟩ := by
  simp only [promote, Table.get?_of_mem member, if_neg different, apply]

theorem promote_of_eq {state : Resolved} {entity : Entity} {kind : Kind}
    (member : entity ∈ state.table.entries) (same : entity.kind = some kind) :
    state.promote entity.id kind = state := by
  simp only [promote, Table.get?_of_mem member, if_pos same]

/-- A promoted entity is in the table with the kind it was promoted to. -/
theorem mem_promote {state : Resolved} {entity : Entity} (member : entity ∈ state.table.entries)
    (kind : Kind) :
    entity.withKind (some kind) ∈ (state.promote entity.id kind).table.entries := by
  by_cases same : entity.kind = some kind
  · rw [promote_of_eq member same, ← same]
    exact member
  · rw [promote_of_ne member same, apply, Table.entries_setKind]
    exact List.mem_map.mpr ⟨entity, member, if_pos rfl⟩

theorem kind?_of_mem {table : Table} {entity : Entity} (member : entity ∈ table.entries) :
    table.kind? entity.id = entity.kind := by
  rw [Table.kind?, Table.get?_of_mem member, Option.bind_some]

/-- An entity stays in the table through a promotion, with its kind changed at most. -/
theorem Step.mem {state next : Resolved} (step : Step state next) {entity : Entity}
    (member : entity ∈ state.table.entries) :
    ∃ kind, entity.withKind kind ∈ next.table.entries := by
  obtain @⟨promotion, -⟩ := step
  simp only [apply, Table.entries_setKind]
  by_cases same : entity.id = promotion.id
  · exact ⟨some promotion.after, List.mem_map.mpr ⟨entity, member, if_pos same⟩⟩
  · exact ⟨entity.kind, List.mem_map.mpr ⟨entity, member, if_neg same⟩⟩

theorem Steps.mem {state next : Resolved} (steps : Steps state next) {entity : Entity}
    (member : entity ∈ state.table.entries) :
    ∃ kind, entity.withKind kind ∈ next.table.entries := by
  induction steps with
  | refl => exact ⟨entity.kind, member⟩
  | tail _ step inductionHypothesis =>
    obtain ⟨kind, moved⟩ := inductionHypothesis
    obtain ⟨later, movedOn⟩ := step.mem moved
    exact ⟨later, movedOn⟩

/-! ### Sweeps are runs of promotions -/

theorem steps_namespaceRule {state : Resolved} {child : Entity} {owner : String}
    (childMember : child ∈ state.table.entries) (contained : child.container = some owner) :
    Steps state (state.namespaceRule owner) := by
  unfold namespaceRule
  split
  · rename_i kind
    cases found : state.table.get? owner with
    | none => simp [Table.kind?, found] at kind
    | some entity =>
      obtain ⟨member, rfl⟩ := Table.get?_eq_some_iff.mp found
      rw [kind?_of_mem member] at kind
      rw [promote_of_ne member (by rcases kind with kind | kind <;> simp [kind])]
      exact .single (.promote (.container childMember member contained kind))
  · exact .refl

theorem steps_classRule {state : Resolved} {child : Entity} {owner : String}
    (childMember : child ∈ state.table.entries) (contained : child.container = some owner) :
    Steps state (state.classRule owner child.isInstanceMember) := by
  unfold classRule
  split
  · rename_i kind
    cases found : state.table.get? owner with
    | none => simp [Table.kind?, found] at kind
    | some entity =>
      obtain ⟨member, rfl⟩ := Table.get?_eq_some_iff.mp found
      rw [kind?_of_mem member] at kind
      rw [promote_of_ne member (by simp [kind.1])]
      exact .single (.promote (.instanceOwner childMember member contained kind.2 kind.1))
  · exact .refl

/-- The class rule runs behind the namespace rule, which may have changed the child itself. -/
theorem steps_classRule_namespaceRule {state : Resolved} {child : Entity} {owner : String}
    (childMember : child ∈ state.table.entries) (contained : child.container = some owner) :
    Steps (state.namespaceRule owner) (state.settleContainer owner child.isInstanceMember) := by
  obtain ⟨kind, childMoved⟩ := (steps_namespaceRule childMember contained).mem childMember
  have owned := steps_classRule childMoved contained
  exact owned

theorem steps_settleContainer {state : Resolved} {child : Entity} {owner : String}
    (childMember : child ∈ state.table.entries) (contained : child.container = some owner) :
    Steps state (state.settleContainer owner child.isInstanceMember) :=
  (steps_namespaceRule childMember contained).trans
    (steps_classRule_namespaceRule childMember contained)

/-- Promoting one side of an inheritance to a class, if the other side is one. -/
theorem steps_promoteLinked {state : Resolved} {known other : Entity}
    (linked : state.table.Linked known other) (kind : known.kind = some .classKind) :
    Steps state (state.promote other.id .classKind) := by
  by_cases same : other.kind = some .classKind
  · rw [promote_of_eq linked.2.1 same]
  · rw [promote_of_ne linked.2.1 same]
    exact .single (.promote (.inheritance linked kind same))

theorem steps_settleInheritance {state : Resolved} {entity : Entity} {base : String}
    (member : entity ∈ state.table.entries) (inherits : entity.inheritsFrom = some base) :
    Steps state (state.settleInheritance entity.id base) := by
  unfold settleInheritance
  split
  · exact .refl
  · rename_i present
    obtain ⟨parent, parentMember, rfl⟩ := List.mem_map.mp
      (Table.contains_iff.mp (by simpa using present))
    have linked : state.table.Linked parent entity := ⟨parentMember, member, Or.inr inherits⟩
    split
    · rename_i kinds
      rw [kind?_of_mem member, kind?_of_mem parentMember] at kinds
      have first : Steps state (state.promote entity.id .classKind) := by
        rcases kinds with kind | kind
        · rw [promote_of_eq member kind]
        · exact steps_promoteLinked linked kind
      obtain ⟨kind, parentMoved⟩ := first.mem parentMember
      have second := steps_promoteLinked
        ⟨mem_promote member .classKind, parentMoved, Or.inl inherits⟩ rfl
      exact first.trans second
    · exact .refl

theorem steps_settleOwner {state : Resolved} {entity : Entity}
    (member : entity ∈ state.table.entries) : Steps state (state.settleOwner entity) := by
  unfold settleOwner
  split
  · exact .refl
  · rename_i container
    exact steps_settleContainer member container

theorem steps_settleBase {state : Resolved} {entity : Entity} {kind : Option Kind}
    (member : entity.withKind kind ∈ state.table.entries) :
    Steps state (state.settleBase entity) := by
  unfold settleBase
  split
  · exact .refl
  · rename_i inherits
    have inherited := steps_settleInheritance member inherits
    exact inherited

theorem settleEntity_of_mem {state : Resolved} {entity : Entity}
    (member : entity ∈ state.table.entries) :
    state.settleEntity entity.id = (state.settleOwner entity).settleBase entity := by
  rw [settleEntity, Table.get?_of_mem member]

theorem steps_settleEntity (state : Resolved) (id : String) :
    Steps state (state.settleEntity id) := by
  cases found : state.table.get? id with
  | none =>
    rw [settleEntity, found]
  | some entity =>
    obtain ⟨member, rfl⟩ := Table.get?_eq_some_iff.mp found
    rw [settleEntity_of_mem member]
    have owner := steps_settleOwner member
    obtain ⟨kind, moved⟩ := owner.mem member
    exact owner.trans (steps_settleBase moved)

theorem steps_foldl_settleEntity (state : Resolved) (ids : List String) :
    Steps state (ids.foldl settleEntity state) := by
  induction ids generalizing state with
  | nil => exact .refl
  | cons id rest inductionHypothesis =>
    exact (steps_settleEntity state id).trans (inductionHypothesis (state.settleEntity id))

theorem steps_sweep (state : Resolved) : Steps state state.sweep :=
  steps_foldl_settleEntity state state.table.ids

theorem steps_settle (rounds : Nat) (state : Resolved) : Steps state (state.settle rounds) := by
  induction rounds generalizing state with
  | zero => exact .refl
  | succ rounds inductionHypothesis =>
    unfold settle
    simp only
    split
    · exact steps_sweep state
    · exact (steps_sweep state).trans (inductionHypothesis state.sweep)

/-- A resolution, of either kind, is a run of promotions that the rules allow. -/
theorem steps_resolve (table : Table) (resolution : Resolution) :
    Steps ⟨table, []⟩ (table.resolve resolution) := by
  cases resolution with
  | singleSweep => exact steps_sweep _
  | fixedPoint => exact steps_settle _ _

/-! ### Promotions take room -/

/-- A promotion leaves less room in the table, and is recorded. -/
theorem Step.room_lt {state next : Resolved} (step : Step state next) :
    next.table.room < state.table.room := by
  obtain @⟨promotion, allowed⟩ := step
  obtain ⟨entity, member, named, kind⟩ := allowed.exists_entity
  have less : kindRoom (some promotion.after) < kindRoom entity.kind := by
    rw [kind]
    exact allowed.kindRoom_lt
  show (((state.table.setKind promotion.id (some promotion.after)).entries.map _).sum) <
    ((state.table.entries.map _).sum)
  rw [Table.entries_setKind, List.map_map]
  refine List.sum_lt_sum _ _ (fun other otherMember => ?_) ⟨entity, member, ?_⟩
  · simp only [Function.comp_apply]
    split
    · rename_i otherNamed
      rw [Table.eq_of_mem_of_id_eq otherMember member (otherNamed.trans named.symm)]
      exact less.le
    · exact le_rfl
  · simp only [Function.comp_apply, if_pos named]
    exact less

theorem Step.length_promotions {state next : Resolved} (step : Step state next) :
    next.promotions.length = state.promotions.length + 1 := by
  obtain @⟨promotion, -⟩ := step
  simp [apply]

/-- A run of promotions is empty, or it leaves less room and more promotions. -/
theorem Steps.eq_or_lt {state next : Resolved} (steps : Steps state next) :
    next = state ∨
      (next.table.room < state.table.room ∧
        state.promotions.length < next.promotions.length) := by
  induction steps with
  | refl => exact Or.inl rfl
  | tail _ step inductionHypothesis =>
    have room := step.room_lt
    have length := step.length_promotions
    rcases inductionHypothesis with rfl | ⟨roomBefore, lengthBefore⟩
    · exact Or.inr ⟨room, by omega⟩
    · exact Or.inr ⟨by omega, by omega⟩

theorem Steps.length_le {state next : Resolved} (steps : Steps state next) :
    state.promotions.length ≤ next.promotions.length := by
  rcases steps.eq_or_lt with rfl | ⟨-, less⟩
  · exact le_rfl
  · exact less.le

theorem Steps.eq_of_length_eq {state next : Resolved} (steps : Steps state next)
    (same : next.promotions.length = state.promotions.length) : next = state := by
  rcases steps.eq_or_lt with equal | ⟨-, less⟩
  · exact equal
  · omega

/-! ### A sweep without a promotion -/

theorem apply_ne (state : Resolved) (promotion : Promotion) : state.apply promotion ≠ state := by
  intro equal
  have lengths := congrArg (fun some : Resolved => some.promotions.length) equal
  simp [apply] at lengths

theorem length_le_promote (state : Resolved) (id : String) (kind : Kind) :
    state.promotions.length ≤ (state.promote id kind).promotions.length := by
  unfold promote
  split
  · exact le_rfl
  · split
    · exact le_rfl
    · simp

/-- A sweep that makes no promotion left every entity as it was. -/
theorem settleEntity_eq_of_foldl {state : Resolved} {ids : List String}
    (unchanged : (ids.foldl settleEntity state).promotions.length = state.promotions.length)
    {id : String} (member : id ∈ ids) : state.settleEntity id = state := by
  induction ids with
  | nil => cases member
  | cons first rest inductionHypothesis =>
    have firstSteps := steps_settleEntity state first
    have restSteps := steps_foldl_settleEntity (state.settleEntity first) rest
    rw [List.foldl_cons] at unchanged
    have firstSame : state.settleEntity first = state := by
      refine firstSteps.eq_of_length_eq ?_
      have := firstSteps.length_le
      have := restSteps.length_le
      omega
    rw [firstSame] at unchanged
    rcases List.mem_cons.mp member with rfl | later
    · exact firstSame
    · exact inductionHypothesis unchanged later

/-- Where the container rules change nothing, they do not apply. -/
theorem kind_of_settleContainer_eq {state : Resolved} {child owner : Entity}
    (childMember : child ∈ state.table.entries) (ownerMember : owner ∈ state.table.entries)
    (contained : child.container = some owner.id)
    (unchanged : state.settleContainer owner.id child.isInstanceMember = state) :
    owner.kind ≠ some .function ∧ owner.kind ≠ some .member ∧
      (child.isInstanceMember = true → owner.kind ≠ some .namespaceKind) := by
  have named := steps_namespaceRule childMember contained
  have owned := steps_classRule_namespaceRule childMember contained
  rw [unchanged] at owned
  have namedSame := named.eq_of_length_eq (le_antisymm owned.length_le named.length_le)
  rw [settleContainer, namedSame] at unchanged
  simp only [namespaceRule, classRule, kind?_of_mem ownerMember] at namedSame unchanged
  have notNamed : ¬ (owner.kind = some .function ∨ owner.kind = some .member) := by
    intro kind
    rw [if_pos kind, promote_of_ne ownerMember (by rcases kind with kind | kind <;> simp [kind])]
      at namedSame
    exact apply_ne _ _ namedSame
  refine ⟨fun kind => notNamed (Or.inl kind), fun kind => notNamed (Or.inr kind), ?_⟩
  intro instanceMember kind
  rw [if_pos ⟨kind, instanceMember⟩, promote_of_ne ownerMember (by simp [kind])] at unchanged
  exact apply_ne _ _ unchanged

/-- Where the inheritance rule changes nothing, both sides are classes or neither is. -/
theorem kind_of_settleInheritance_eq {state : Resolved} {entity base : Entity}
    (member : entity ∈ state.table.entries) (baseMember : base ∈ state.table.entries)
    (unchanged : state.settleInheritance entity.id base.id = state) :
    entity.kind = some .classKind ↔ base.kind = some .classKind := by
  have present : state.table.contains base.id = true :=
    Table.contains_iff.mpr (List.mem_map_of_mem baseMember)
  simp only [settleInheritance, present, kind?_of_mem member, kind?_of_mem baseMember,
    Bool.not_true, Bool.false_eq_true, if_false] at unchanged
  by_cases kind : entity.kind = some .classKind <;>
    by_cases baseKind : base.kind = some .classKind
  · exact iff_of_true kind baseKind
  · rw [if_pos (Or.inl kind), promote_of_eq member kind, promote_of_ne baseMember baseKind]
      at unchanged
    exact absurd unchanged (apply_ne _ _)
  · rw [if_pos (Or.inr baseKind), promote_of_ne member kind] at unchanged
    have lengths := length_le_promote (state.apply ⟨entity.id, entity.kind, .classKind⟩) base.id
      .classKind
    rw [unchanged] at lengths
    simp [apply] at lengths
  · exact iff_of_false kind baseKind

/-- Behind a sweep that made no promotion, the rules allow none. -/
theorem not_allowed_of_sweep {state : Resolved}
    (unchanged : state.sweep.promotions.length = state.promotions.length)
    (promotion : Promotion) : ¬ promotion.Allowed state.table := by
  have owners : ∀ entity ∈ state.table.entries, state.settleOwner entity = state := by
    intro entity member
    have same := settleEntity_eq_of_foldl unchanged (List.mem_map_of_mem member)
    rw [settleEntity_of_mem member] at same
    have owner := steps_settleOwner member
    obtain ⟨kind, moved⟩ := owner.mem member
    have base := steps_settleBase moved
    rw [same] at base
    exact owner.eq_of_length_eq (le_antisymm base.length_le owner.length_le)
  have bases : ∀ entity ∈ state.table.entries, state.settleBase entity = state := by
    intro entity member
    have same := settleEntity_eq_of_foldl unchanged (List.mem_map_of_mem member)
    rwa [settleEntity_of_mem member, owners entity member] at same
  intro allowed
  cases allowed with
  | container childMember ownerMember contained kind =>
    have settled := owners _ childMember
    rw [settleOwner, contained] at settled
    have kinds := kind_of_settleContainer_eq childMember ownerMember contained settled
    rcases kind with kind | kind
    · exact kinds.1 kind
    · exact kinds.2.1 kind
  | instanceOwner childMember ownerMember contained instanceMember kind =>
    have settled := owners _ childMember
    rw [settleOwner, contained] at settled
    have kinds := kind_of_settleContainer_eq childMember ownerMember contained settled
    exact kinds.2.2 instanceMember kind
  | inheritance linked knownKind otherKind =>
    obtain ⟨knownMember, otherMember, inherits | inherits⟩ := linked
    · have settled := bases _ knownMember
      rw [settleBase, inherits] at settled
      exact otherKind ((kind_of_settleInheritance_eq knownMember otherMember settled).mp knownKind)
    · have settled := bases _ otherMember
      rw [settleBase, inherits] at settled
      exact otherKind ((kind_of_settleInheritance_eq otherMember knownMember settled).mpr knownKind)

/-! ### The loop of sweeps -/

/-- The loop of sweeps, with no limit on their number: it ends behind the first sweep that
makes no promotion. -/
inductive SweepsTo : Resolved → Resolved → Prop where
  | last {state : Resolved}
      (unchanged : state.sweep.promotions.length = state.promotions.length) :
      SweepsTo state state.sweep
  | more {state final : Resolved}
      (changed : state.sweep.promotions.length ≠ state.promotions.length)
      (rest : SweepsTo state.sweep final) : SweepsTo state final

/-- Rounds for more than the room of the table are enough for the loop to end by itself. -/
theorem sweepsTo_settle {rounds : Nat} {state : Resolved} (enough : state.table.room < rounds) :
    SweepsTo state (state.settle rounds) := by
  induction rounds generalizing state with
  | zero => omega
  | succ rounds inductionHypothesis =>
    unfold settle
    by_cases unchanged : state.sweep.promotions.length = state.promotions.length
    · simp only [if_pos unchanged]
      exact .last unchanged
    · simp only [if_neg unchanged]
      refine .more unchanged (inductionHypothesis ?_)
      rcases (steps_sweep state).eq_or_lt with same | ⟨less, -⟩
      · exact absurd (congrArg (fun some : Resolved => some.promotions.length) same) unchanged
      · omega

theorem SweepsTo.not_allowed {state final : Resolved} (loop : SweepsTo state final)
    (promotion : Promotion) : ¬ promotion.Allowed final.table := by
  induction loop with
  | last unchanged =>
    rw [(steps_sweep _).eq_of_length_eq unchanged]
    exact not_allowed_of_sweep unchanged promotion
  | more _ _ inductionHypothesis => exact inductionHypothesis

theorem sweepsTo_resolve (table : Table) :
    SweepsTo ⟨table, []⟩ (table.resolve .fixedPoint) :=
  sweepsTo_settle (Nat.lt_succ_self table.room)

/-! ### Replaying promotions -/

/-- The entries of a resolved table are those at the start, each taken through the promotions
that were made. -/
theorem Steps.entries_eq {table : Table} {state : Resolved} (steps : Steps ⟨table, []⟩ state) :
    state.table.entries = table.entries.map (Promotion.replay state.promotions) ∧
      state.table.collisions = table.collisions := by
  induction steps with
  | refl => exact ⟨(List.map_id table.entries).symm, rfl⟩
  | tail _ step inductionHypothesis =>
    obtain @⟨promotion, -⟩ := step
    obtain ⟨entries, collisions⟩ := inductionHypothesis
    refine ⟨?_, collisions⟩
    rw [apply, Table.entries_setKind, entries, List.map_map]
    refine List.map_congr_left (fun entity _ => ?_)
    rw [Promotion.replay_concat]
    rfl

end Resolved

end DocEntities
