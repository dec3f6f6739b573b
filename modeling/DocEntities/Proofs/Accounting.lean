/-
This file accounts for the promotions of a correction of kinds. The number that is returned is
counted on the way: one wherever a rule gives an entity another kind, summed up over a sweep, and
over the sweeps of the loop until one of them counts nothing. It is the number of promotions that
are logged.

The log can be replayed. Every promotion in it is one of an entity that is there and has, at that
moment, the kind it is promoted from; and replaying all of them leads to the corrected table.
Each takes room away from the kind of its entity, so the room of a kind bounds how often an entity
is promoted, no kind is reached twice, and a class, which has no room, is never left. The room of
all kinds bounds the count, and with it the number of sweeps.
-/

import DocEntities.Event
import DocEntities.Proofs.Json.RoundTrip
import DocEntities.Proofs.Saturation
import DocEntities.Proofs.Text

namespace DocEntities

/-! ### The count -/

namespace Resolved

/-- One if promoting an entity gives it another kind, and nothing otherwise. -/
def promoteCount (state : Resolved) (id : String) (kind : Kind) : Nat :=
  match state.table.get? id with
  | none => 0
  | some entity => if entity.kind = some kind then 0 else 1

/-- What the rules for the container `owner` of an entity count. -/
def containerCount (state : Resolved) (owner : String) (instanceMember : Bool) : Nat :=
  let named := state.namespaceRule owner
  (if state.table.kind? owner = some .function ∨ state.table.kind? owner = some .member then
    state.promoteCount owner .namespaceKind
  else 0) +
  if named.table.kind? owner = some .namespaceKind ∧ instanceMember then
    named.promoteCount owner .classKind
  else 0

/-- What the rule for an entity and the entity it inherits from counts. -/
def inheritanceCount (state : Resolved) (id base : String) : Nat :=
  if !state.table.contains base then 0
  else if state.table.kind? id = some .classKind ∨ state.table.kind? base = some .classKind then
    state.promoteCount id .classKind + (state.promote id .classKind).promoteCount base .classKind
  else 0

/-- What the rules for the container of an entity count, if it has one. -/
def ownerCount (state : Resolved) (entity : Entity) : Nat :=
  match entity.container with
  | none => 0
  | some owner => state.containerCount owner entity.isInstanceMember

/-- What the rule for what an entity inherits from counts, if it inherits. -/
def baseCount (state : Resolved) (entity : Entity) : Nat :=
  match entity.inheritsFrom with
  | none => 0
  | some base => state.inheritanceCount entity.id base

/-- What the rules for one entity count. -/
def entityCount (state : Resolved) (id : String) : Nat :=
  match state.table.get? id with
  | none => 0
  | some entity => state.ownerCount entity + (state.settleOwner entity).baseCount entity

/-- What the rules count for several entities, one after the other. -/
def entitiesCount : List String → Resolved → Nat
  | [], _ => 0
  | id :: rest, state => state.entityCount id + entitiesCount rest (state.settleEntity id)

/-- What a sweep counts. -/
def sweepCount (state : Resolved) : Nat :=
  entitiesCount state.table.ids state

variable (state : Resolved)

theorem length_promote (id : String) (kind : Kind) :
    (state.promote id kind).promotions.length =
      state.promotions.length + state.promoteCount id kind := by
  unfold promote promoteCount
  cases state.table.get? id with
  | none => rfl
  | some entity =>
    by_cases same : entity.kind = some kind
    · simp only [if_pos same, Nat.add_zero]
    · simp only [if_neg same, List.length_append, List.length_singleton]

theorem length_settleContainer (owner : String) (instanceMember : Bool) :
    (state.settleContainer owner instanceMember).promotions.length =
      state.promotions.length + state.containerCount owner instanceMember := by
  have named : (state.namespaceRule owner).promotions.length =
      state.promotions.length +
        if state.table.kind? owner = some .function ∨ state.table.kind? owner = some .member then
          state.promoteCount owner .namespaceKind
        else 0 := by
    unfold namespaceRule
    split
    · exact length_promote state owner .namespaceKind
    · rfl
  rw [settleContainer, containerCount, ← Nat.add_assoc, ← named, classRule]
  split
  · exact length_promote _ owner .classKind
  · rfl

theorem length_settleInheritance (id base : String) :
    (state.settleInheritance id base).promotions.length =
      state.promotions.length + state.inheritanceCount id base := by
  unfold settleInheritance inheritanceCount
  split
  · rfl
  · split
    · rw [length_promote, length_promote, Nat.add_assoc]
    · rfl

theorem length_settleOwner (entity : Entity) :
    (state.settleOwner entity).promotions.length =
      state.promotions.length + state.ownerCount entity := by
  unfold settleOwner ownerCount
  cases entity.container with
  | none => rfl
  | some owner => exact length_settleContainer state owner _

theorem length_settleBase (entity : Entity) :
    (state.settleBase entity).promotions.length =
      state.promotions.length + state.baseCount entity := by
  unfold settleBase baseCount
  cases entity.inheritsFrom with
  | none => rfl
  | some base => exact length_settleInheritance state _ base

theorem length_settleEntity (id : String) :
    (state.settleEntity id).promotions.length =
      state.promotions.length + state.entityCount id := by
  unfold settleEntity entityCount
  cases state.table.get? id with
  | none => rfl
  | some entity =>
    simp only
    rw [length_settleBase, length_settleOwner, Nat.add_assoc]

theorem length_foldl_settleEntity (ids : List String) :
    (ids.foldl settleEntity state).promotions.length =
      state.promotions.length + entitiesCount ids state := by
  induction ids generalizing state with
  | nil => rfl
  | cons id rest inductionHypothesis =>
    rw [List.foldl_cons, inductionHypothesis, length_settleEntity, entitiesCount, Nat.add_assoc]

/-- A sweep counts the promotions that it logs. -/
theorem length_sweep :
    state.sweep.promotions.length = state.promotions.length + state.sweepCount :=
  length_foldl_settleEntity state state.table.ids

theorem sweepCount_eq_zero_iff :
    state.sweepCount = 0 ↔ state.sweep.promotions.length = state.promotions.length := by
  rw [length_sweep]
  omega

/-- A sweep that counts something takes room away. -/
theorem room_sweep_lt {state : Resolved} (counted : state.sweepCount ≠ 0) :
    state.sweep.table.room < state.table.room := by
  rcases (steps_sweep state).eq_or_lt with same | ⟨less, -⟩
  · exact absurd ((sweepCount_eq_zero_iff state).mpr (by rw [same])) counted
  · exact less

/-- What the loop of sweeps counts: the sum over its sweeps, of which the first that counts
nothing is the last. -/
def loopCount (state : Resolved) : Nat :=
  if state.sweepCount = 0 then 0 else state.sweepCount + state.sweep.loopCount
termination_by state.table.room
decreasing_by exact room_sweep_lt ‹_›

/-- The loop counts the promotions that it logs. -/
theorem SweepsTo.length {state final : Resolved} (loop : SweepsTo state final) :
    final.promotions.length = state.promotions.length + state.loopCount := by
  induction loop with
  | @last state unchanged =>
    rw [loopCount, if_pos ((sweepCount_eq_zero_iff state).mpr unchanged)]
    exact unchanged
  | @more state final changed _ inductionHypothesis =>
    have counted : state.loopCount = state.sweepCount + state.sweep.loopCount := by
      rw [loopCount, if_neg (mt (sweepCount_eq_zero_iff state).mp changed)]
    rw [inductionHypothesis, length_sweep, Nat.add_assoc, counted]

/-- All sweeps of the loop but the last count something, so there are not many more of them than
promotions. -/
theorem SweepsTo.exists_rounds {state final : Resolved} (loop : SweepsTo state final) :
    ∃ rounds ≤ state.loopCount,
      (∀ earlier < rounds, (sweep^[earlier] state).sweepCount ≠ 0) ∧
        (sweep^[rounds] state).sweepCount = 0 ∧ final = sweep^[rounds + 1] state := by
  induction loop with
  | @last state unchanged =>
    exact ⟨0, Nat.zero_le _, nofun, (sweepCount_eq_zero_iff state).mpr unchanged, rfl⟩
  | @more state final changed _ inductionHypothesis =>
    have counted := mt (sweepCount_eq_zero_iff state).mp changed
    obtain ⟨rounds, bound, before, last, rfl⟩ := inductionHypothesis
    refine ⟨rounds + 1, ?_, fun earlier less => ?_, last, rfl⟩
    · rw [loopCount, if_neg counted]
      omega
    · cases earlier with
      | zero => exact counted
      | succ earlier => exact before earlier (by omega)

end Resolved

/-- The number that a correction of kinds returns. -/
def Table.promotionCount (table : Table) : Resolution → Nat
  | .singleSweep => (Resolved.mk table []).sweepCount
  | .fixedPoint => (Resolved.mk table []).loopCount

/-- The number that is returned is the number of promotions that are logged. -/
theorem Table.length_promotions_resolve (table : Table) (resolution : Resolution) :
    (table.resolve resolution).promotions.length = table.promotionCount resolution := by
  cases resolution with
  | singleSweep => exact (Resolved.length_sweep ⟨table, []⟩).trans (Nat.zero_add _)
  | fixedPoint => exact (Resolved.sweepsTo_resolve table).length.trans (Nat.zero_add _)

/-! ### The lines of the log -/

namespace Kind

theorem name_injective : Function.Injective Kind.name := by
  intro first second same
  exact Option.some.inj (by rw [← ofName?_name first, same, ofName?_name])

theorem space_notMem_name (kind : Kind) : ' ' ∉ kind.name.toList := by
  cases kind <;> decide

theorem name_ne_kind (kind : Kind) : kind.name.toList ≠ "kind".toList := by
  cases kind <;> decide

end Kind

namespace Event

/-- That a kind is missing takes two words, of which the last is no kind. -/
theorem kindWord_some_ne_none (first second : List Char) (kind : Kind) :
    first ++ ' ' :: (kindWord (some kind)).toList ≠
      second ++ ' ' :: (kindWord none).toList := by
  have words : second ++ ' ' :: (kindWord none).toList =
      (second ++ ' ' :: "no".toList) ++ ' ' :: "kind".toList := by
    have missing : (kindWord none).toList = "no".toList ++ ' ' :: "kind".toList := by decide
    rw [missing, List.append_assoc, List.cons_append]
  intro same
  rw [words] at same
  obtain ⟨-, -, lastWords⟩ :=
    (Text.append_cons_eq_iff kind.space_notMem_name (by decide)).mp same
  exact kind.name_ne_kind lastWords

theorem kindWord_inj {first second : List Char} {kind other : Option Kind}
    (same : first ++ ' ' :: (kindWord kind).toList = second ++ ' ' :: (kindWord other).toList) :
    first = second ∧ kind = other := by
  cases kind with
  | none =>
    cases other with
    | none => exact ⟨List.append_cancel_right same, rfl⟩
    | some other => exact absurd same.symm (kindWord_some_ne_none second first other)
  | some kind =>
    cases other with
    | none => exact absurd same (kindWord_some_ne_none first second kind)
    | some other =>
      obtain ⟨before, -, names⟩ :=
        (Text.append_cons_eq_iff kind.space_notMem_name other.space_notMem_name).mp same
      exact ⟨before, congrArg some (Kind.name_injective (String.toList_inj.mp names))⟩

theorem toList_line_promoted (promotion : Promotion) :
    (promoted promotion).line.toList =
      ("DEBUG `".toList ++ promotion.id.toList ++ "` promoted from".toList ++
        ' ' :: (kindWord promotion.before).toList ++ " to".toList) ++
          ' ' :: promotion.after.name.toList := by
  have line : (promoted promotion).line =
      "DEBUG" ++ " " ++ ("`" ++ promotion.id ++ "` promoted from " ++
        kindWord promotion.before ++ " to " ++ promotion.after.name) := rfl
  have opening : "DEBUG `".toList = "DEBUG".toList ++ (" ".toList ++ "`".toList) := by decide
  have origin : "` promoted from ".toList = "` promoted from".toList ++ [' '] := by decide
  have target : " to ".toList = " to".toList ++ [' '] := by decide
  rw [line]
  simp only [String.toList_append]
  rw [opening, origin, target]
  simp only [List.append_assoc, List.cons_append, List.nil_append]

/-- The line of a promotion tells which entity was promoted, from which kind and to which. -/
theorem line_promoted_injective :
    Function.Injective fun promotion : Promotion => (promoted promotion).line := by
  intro first second same
  have lines := congrArg String.toList same
  simp only [toList_line_promoted] at lines
  obtain ⟨upTo, -, names⟩ :=
    (Text.append_cons_eq_iff first.after.space_notMem_name second.after.space_notMem_name).mp lines
  obtain ⟨upToKind, before⟩ := kindWord_inj (List.append_cancel_right upTo)
  have ids := String.toList_inj.mp
    (List.append_cancel_left (List.append_cancel_right upToKind))
  have after := Kind.name_injective (String.toList_inj.mp names)
  cases first
  cases second
  congr

end Event

/-! ### Replaying the log -/

namespace Table

/-- Makes a promotion, if its entity is there and has the kind that it is promoted from. -/
def promote? (table : Table) (promotion : Promotion) : Option Table :=
  match table.get? promotion.id with
  | none => none
  | some entity =>
    if entity.kind = promotion.before then
      some (table.setKind promotion.id (some promotion.after))
    else none

/-- Makes promotions in their order. -/
def replay? (table : Table) (promotions : List Promotion) : Option Table :=
  promotions.foldlM promote? table

theorem promote?_eq_some_iff {table next : Table} {promotion : Promotion} :
    table.promote? promotion = some next ↔
      ∃ entity ∈ table.entries, entity.id = promotion.id ∧ entity.kind = promotion.before ∧
        table.setKind promotion.id (some promotion.after) = next := by
  unfold promote?
  constructor
  · intro made
    split at made
    · cases made
    · rename_i entity found
      obtain ⟨member, named⟩ := get?_eq_some_iff.mp found
      split at made
      · rename_i kind
        exact ⟨entity, member, named, kind, Option.some.inj made⟩
      · cases made
  · rintro ⟨entity, member, named, kind, rfl⟩
    rw [← named, get?_of_mem member]
    exact if_pos kind

theorem replay?_concat (table : Table) (promotions : List Promotion) (promotion : Promotion) :
    table.replay? (promotions ++ [promotion]) =
      (table.replay? promotions).bind (promote? · promotion) := by
  simp only [replay?, List.foldlM_append, List.foldlM_cons, List.foldlM_nil, bind_pure]
  rfl

theorem kind?_before_of_promote? {table next : Table} {promotion : Promotion}
    (made : table.promote? promotion = some next) :
    table.kind? promotion.id = promotion.before := by
  obtain ⟨entity, member, named, kind, -⟩ := promote?_eq_some_iff.mp made
  rw [← named, Resolved.kind?_of_mem member, kind]

theorem kind?_of_promote? {table next : Table} {promotion : Promotion}
    (made : table.promote? promotion = some next) (id : String) :
    next.kind? id = if id = promotion.id then some promotion.after else table.kind? id := by
  obtain ⟨entity, member, named, -, rfl⟩ := promote?_eq_some_iff.mp made
  split
  · rename_i same
    rw [same, ← named, kind?_setKind_of_mem member]
  · rename_i different
    exact kind?_setKind_of_ne different _

end Table

/-! ### Kinds fall -/

/-- A promotion to a kind that has less room than the one before. -/
def Promotion.Falls (promotion : Promotion) : Prop :=
  kindRoom (some promotion.after) < kindRoom promotion.before

namespace Promotion.Falls

variable {promotion : Promotion}

theorem before_ne_class (falls : promotion.Falls) : promotion.before ≠ some .classKind := by
  intro isClass
  rw [Falls, isClass] at falls
  exact Nat.not_lt_zero _ falls

theorem before_ne_after (falls : promotion.Falls) : promotion.before ≠ some promotion.after := by
  intro same
  rw [Falls, same] at falls
  exact Nat.lt_irrefl _ falls

end Promotion.Falls

section Replayed

variable {table final : Table} {log : List Promotion}

/-- In a log that can be replayed, the room of a kind pays for the promotions of its entity. -/
theorem Table.countP_add_kindRoom_le (replayed : table.replay? log = some final)
    (falls : ∀ promotion ∈ log, promotion.Falls) (id : String) :
    log.countP (fun promotion => promotion.id == id) + kindRoom (final.kind? id) ≤
      kindRoom (table.kind? id) := by
  induction log generalizing table with
  | nil =>
    obtain rfl : table = final := Option.some.inj replayed
    rw [List.countP_nil, Nat.zero_add]
  | cons promotion rest inductionHypothesis =>
    obtain ⟨next, made, later⟩ := Option.bind_eq_some_iff.mp replayed
    obtain ⟨fall, restFalls⟩ := List.forall_mem_cons.mp falls
    have spent := inductionHypothesis later restFalls
    rw [kind?_of_promote? made] at spent
    by_cases same : id = promotion.id
    · have counted : (promotion :: rest).countP (fun promotion => promotion.id == id) =
          rest.countP (fun promotion => promotion.id == id) + 1 :=
        List.countP_cons_of_pos (beq_iff_eq.mpr same.symm)
      have before : table.kind? id = promotion.before := same ▸ kind?_before_of_promote? made
      have pays : kindRoom (some promotion.after) < kindRoom promotion.before := fall
      rw [if_pos same] at spent
      rw [counted, before]
      omega
    · rw [if_neg same] at spent
      rwa [List.countP_cons_of_neg (by simpa using Ne.symm same)]

/-- No promotion of a log that can be replayed is to a kind with as much room as at the start. -/
theorem Table.kindRoom_after_lt (replayed : table.replay? log = some final)
    (falls : ∀ promotion ∈ log, promotion.Falls) :
    ∀ promotion ∈ log, kindRoom (some promotion.after) < kindRoom (table.kind? promotion.id) := by
  induction log generalizing table with
  | nil => nofun
  | cons promotion rest inductionHypothesis =>
    obtain ⟨next, made, later⟩ := Option.bind_eq_some_iff.mp replayed
    obtain ⟨fall, restFalls⟩ := List.forall_mem_cons.mp falls
    have here : kindRoom (some promotion.after) < kindRoom (table.kind? promotion.id) := by
      rw [kind?_before_of_promote? made]
      exact fall
    refine List.forall_mem_cons.mpr ⟨here, fun other member => ?_⟩
    have below := inductionHypothesis later restFalls other member
    rw [kind?_of_promote? made] at below
    split at below
    · rename_i same
      rw [same]
      exact below.trans here
    · exact below

/-- No entity is promoted twice to one kind. -/
theorem Table.nodup_targets (replayed : table.replay? log = some final)
    (falls : ∀ promotion ∈ log, promotion.Falls) :
    (log.map fun promotion => (promotion.id, promotion.after)).Nodup := by
  induction log generalizing table with
  | nil => exact List.nodup_nil
  | cons promotion rest inductionHypothesis =>
    obtain ⟨next, made, later⟩ := Option.bind_eq_some_iff.mp replayed
    have restFalls := (List.forall_mem_cons.mp falls).2
    refine List.nodup_cons.mpr ⟨fun again => ?_, inductionHypothesis later restFalls⟩
    obtain ⟨other, member, same⟩ := List.mem_map.mp again
    obtain ⟨sameId, sameKind⟩ := Prod.mk.inj same
    -- Behind the first promotion the kind has only the room that this one leaves it.
    have below := Table.kindRoom_after_lt later restFalls other member
    rw [kind?_of_promote? made, if_pos sameId, sameKind] at below
    exact Nat.lt_irrefl _ below

end Replayed

/-! ### Runs of promotions -/

namespace Resolved

variable {table : Table} {state : Resolved}

theorem Steps.replay?_eq_some (steps : Steps ⟨table, []⟩ state) :
    table.replay? state.promotions = some state.table := by
  induction steps with
  | refl => rfl
  | tail _ step inductionHypothesis =>
    obtain @⟨promotion, allowed⟩ := step
    obtain ⟨entity, member, named, kind⟩ := allowed.exists_entity
    rw [apply, Table.replay?_concat, inductionHypothesis]
    exact Table.promote?_eq_some_iff.mpr ⟨entity, member, named, kind, rfl⟩

theorem Steps.falls (steps : Steps ⟨table, []⟩ state) :
    ∀ promotion ∈ state.promotions, promotion.Falls := by
  induction steps with
  | refl => nofun
  | tail _ step inductionHypothesis =>
    obtain @⟨promotion, allowed⟩ := step
    exact List.forall_mem_append.mpr
      ⟨inductionHypothesis, List.forall_mem_singleton.mpr allowed.kindRoom_lt⟩

/-- The room of a table pays for all promotions. -/
theorem Steps.length_add_room_le (steps : Steps ⟨table, []⟩ state) :
    state.promotions.length + state.table.room ≤ table.room := by
  induction steps with
  | refl => exact (Nat.zero_add _).le
  | tail _ step inductionHypothesis =>
    have length := step.length_promotions
    have room := step.room_lt
    omega

end Resolved

/-- The promotions of a correction, of either kind, are accounted for. The number that is returned
is the number of lines that are logged, and a line tells its promotion. Replayed in order, every
promotion finds its entity with the kind it is promoted from, and they lead to the corrected table.
None is from a class, and no two take one entity to one kind. An entity is promoted as often as its
kind at the start has room, which is twice for a function or a member, never for a class, and once
for all others; so the room of the table, which is the sum, bounds the number that is returned. The
loop makes at most one sweep more than it counts promotions. -/
theorem promotions_accounted_for :
    (Function.Injective fun promotion : Promotion => (Event.promoted promotion).line) ∧
    ∀ table : Table,
      (∀ resolution : Resolution,
        let resolved := table.resolve resolution
        let log := resolved.promotions
        table.promotionCount resolution =
          (log.map fun promotion => (Event.promoted promotion).line).length ∧
        table.replay? log = some resolved.table ∧
        (log.map fun promotion => (promotion.id, promotion.after)).Nodup ∧
        (∀ promotion ∈ log,
          promotion.before ≠ some promotion.after ∧ promotion.before ≠ some .classKind) ∧
        (∀ entity ∈ table.entries,
          log.countP (fun promotion => promotion.id == entity.id) ≤ kindRoom entity.kind) ∧
        table.promotionCount resolution ≤ table.room) ∧
      ∃ rounds ≤ table.promotionCount .fixedPoint,
        (∀ earlier < rounds, (Resolved.sweep^[earlier] ⟨table, []⟩).sweepCount ≠ 0) ∧
        (Resolved.sweep^[rounds] ⟨table, []⟩).sweepCount = 0 ∧
        table.resolve .fixedPoint = Resolved.sweep^[rounds + 1] ⟨table, []⟩ := by
  refine ⟨Event.line_promoted_injective, fun table => ⟨fun resolution => ?_, ?_⟩⟩
  · have steps := Resolved.steps_resolve table resolution
    have count := table.length_promotions_resolve resolution
    have replayed := steps.replay?_eq_some
    have room := steps.length_add_room_le
    refine ⟨?_, replayed, Table.nodup_targets replayed steps.falls, fun promotion member => ?_,
      fun entity member => ?_, ?_⟩
    · rw [List.length_map, count]
    · have falls := steps.falls promotion member
      exact ⟨falls.before_ne_after, falls.before_ne_class⟩
    · have spent := Table.countP_add_kindRoom_le replayed steps.falls entity.id
      rw [Resolved.kind?_of_mem member] at spent
      exact (Nat.le_add_right _ _).trans spent
    · rw [← count]
      exact (Nat.le_add_right _ _).trans room
  · exact (Resolved.sweepsTo_resolve table).exists_rounds

-- Three entities inherit from one another in a ring. The first sweep finds out about `C`, and has
-- passed `A` by then.
example :
    let table := Table.ofList
      [{ id := "A", name := "A", kind := some .function, inheritsFrom := some "C", source := {} },
       { id := "B", name := "B", inheritsFrom := some "A", source := {} },
       { id := "C#d", name := "d", container := some "C", isInstanceMember := true, source := {} },
       { id := "C", name := "C", kind := some .member, inheritsFrom := some "B", source := {} }]
    (table.resolve .fixedPoint).promotions =
      [⟨"C", some .member, .namespaceKind⟩, ⟨"C", some .namespaceKind, .classKind⟩,
        ⟨"B", none, .classKind⟩, ⟨"A", some .function, .classKind⟩] ∧
      (Resolved.mk table []).sweepCount = 3 ∧ (Resolved.mk table []).sweep.sweepCount = 1 := by
  decide

end DocEntities
