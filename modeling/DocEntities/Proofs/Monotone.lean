/-
This file compares the corrections of two tables that differ in kinds alone. The rules test for
exact kinds, so a kind that is raised switches a rule off that would have fired before; but then
the rule was only to lead where the kind already is. What a rule does to the lower kind therefore
stays below what it does to the higher one, and so does every sweep.

The comparison is made for any relation of kinds that the rules respect, and the relation may
differ from namepath to namepath. With the order of kinds it says that the correction is monotone.
With a weaker relation at one namepath it says what it means to annotate an entity by hand.
-/

import DocEntities.Proofs.Saturation
import Mathlib.Data.List.Forall2
import Mathlib.Order.Defs.Unbundled

namespace DocEntities

/-! ### The order of kinds -/

/-- Kinds are ordered by where promotions lead: functions and members lie below namespaces, and
everything lies below classes. -/
def Kind.AtMost (lower upper : Option Kind) : Prop :=
  lower = upper ∨ upper = some .classKind ∨
    (upper = some .namespaceKind ∧ (lower = some .function ∨ lower = some .member))

instance : DecidableRel Kind.AtMost := fun lower upper => by
  unfold Kind.AtMost
  infer_instance

instance : IsPartialOrder (Option Kind) Kind.AtMost where
  refl _ := Or.inl rfl
  trans first second third := by
    rintro (rfl | rfl | ⟨rfl, below⟩) (rfl | rfl | ⟨rfl, _⟩) <;> simp_all [Kind.AtMost]
  antisymm first second := by
    rintro (rfl | rfl | ⟨rfl, below⟩) (same | same | ⟨same, _⟩) <;> simp_all

/-! ### Relations that the rules respect -/

/-- Relations of kinds, one for each namepath, that hold on after a rule has been applied to both
kinds, or only to the second one. -/
structure Kind.Respected (related : String → Option Kind → Option Kind → Prop) : Prop where
  /-- Nothing is above a class. -/
  top : ∀ id kind, related id kind (some .classKind)
  eq_class : ∀ id kind, related id (some .classKind) kind → kind = some .classKind
  container : ∀ id lower upper instanceMember, related id lower upper →
    related id (Resolved.containerKind instanceMember lower)
      (Resolved.containerKind instanceMember upper)

/-- Two tables that differ in kinds alone, with related kinds. -/
def Table.KindsRelated (related : String → Option Kind → Option Kind → Prop)
    (first second : Table) : Prop :=
  List.Forall₂ (fun entity other => entity.withKind other.kind = other ∧
    related entity.id entity.kind other.kind) first.entries second.entries

namespace Table.KindsRelated

variable {related : String → Option Kind → Option Kind → Prop} {first second : Table}

/-- Kinds that are changed one by one stay related if each change keeps the relation. -/
theorem of_entries_map {firstLater secondLater : Table} (kinds : first.KindsRelated related second)
    (raise otherRaise : String → Option Kind → Option Kind)
    (entries : firstLater.entries =
      first.entries.map (fun entity => entity.withKind (raise entity.id entity.kind)))
    (otherEntries : secondLater.entries =
      second.entries.map (fun entity => entity.withKind (otherRaise entity.id entity.kind)))
    (keeps : ∀ {id lower upper}, related id lower upper →
      related id (raise id lower) (otherRaise id upper)) :
    firstLater.KindsRelated related secondLater := by
  rw [KindsRelated, entries, otherEntries, List.forall₂_map_left_iff, List.forall₂_map_right_iff]
  refine List.Forall₂.imp ?_ kinds
  rintro entity other ⟨same, held⟩
  have named : other.id = entity.id := by rw [← same, Entity.withKind_id]
  refine ⟨?_, ?_⟩
  · rw [Entity.withKind_withKind, Entity.withKind_kind, ← same, Entity.withKind_withKind]
  · rw [Entity.withKind_id, Entity.withKind_kind, Entity.withKind_kind, named]
    exact keeps held

theorem ids_eq (kinds : first.KindsRelated related second) : first.ids = second.ids := by
  have ids : List.Forall₂ (fun id other => id = other) first.ids second.ids := by
    rw [Table.ids, Table.ids, List.forall₂_map_left_iff, List.forall₂_map_right_iff]
    refine List.Forall₂.imp ?_ kinds
    rintro entity other ⟨same, -⟩
    rw [← same, Entity.withKind_id]
  rwa [List.forall₂_eq_eq_eq] at ids

/-- An entity of the first table stands in the second one too, with a related kind. -/
theorem exists_mem (kinds : first.KindsRelated related second) {entity : Entity}
    (member : entity ∈ first.entries) :
    ∃ kind, entity.withKind kind ∈ second.entries ∧ related entity.id entity.kind kind := by
  unfold KindsRelated at kinds
  generalize first.entries = entries, second.entries = others at kinds member ⊢
  induction kinds with
  | nil => cases member
  | @cons head other _ _ held _ inductionHypothesis =>
    rcases List.mem_cons.mp member with rfl | later
    · exact ⟨other.kind, List.mem_cons.mpr (Or.inl held.1), held.2⟩
    · obtain ⟨kind, found, relatedKind⟩ := inductionHypothesis later
      exact ⟨kind, List.mem_cons_of_mem _ found, relatedKind⟩

theorem kind?_related (kinds : first.KindsRelated related second) {id : String}
    (present : id ∈ first.ids) : related id (first.kind? id) (second.kind? id) := by
  obtain ⟨entity, member, rfl⟩ := List.mem_map.mp present
  obtain ⟨kind, found, held⟩ := kinds.exists_mem member
  have upper : second.kind? entity.id = kind := Resolved.kind?_of_mem found
  rw [Resolved.kind?_of_mem member, upper]
  exact held

end Table.KindsRelated

/-! ### Two runs of the rules -/

namespace Resolved

variable {related : String → Option Kind → Option Kind → Prop}
  (respected : Kind.Respected related) {left right : Resolved}
  (kinds : left.table.KindsRelated related right.table)

include respected kinds

theorem related_settleContainer (owner : String) (instanceMember : Bool) :
    (left.settleContainer owner instanceMember).table.KindsRelated related
      (right.settleContainer owner instanceMember).table := by
  let raise (id : String) (kind : Option Kind) : Option Kind :=
    if id = owner then containerKind instanceMember kind else kind
  refine kinds.of_entries_map raise raise (entries_settleContainer left owner instanceMember)
    (entries_settleContainer right owner instanceMember) (fun {id _ _} held => ?_)
  by_cases isOwner : id = owner
  · simp only [raise, if_pos isOwner]
    exact respected.container _ _ _ instanceMember held
  · simp only [raise, if_neg isOwner]
    exact held

theorem related_promote (id : String) :
    (left.promote id .classKind).table.KindsRelated related
      (right.promote id .classKind).table := by
  let raise (other : String) (kind : Option Kind) : Option Kind :=
    if other = id then some .classKind else kind
  refine kinds.of_entries_map raise raise (entries_promote left id .classKind)
    (entries_promote right id .classKind) (fun {other _ _} held => ?_)
  by_cases named : other = id
  · simp only [raise, if_pos named]
    exact respected.top _ _
  · simp only [raise, if_neg named]
    exact held

/-- A class is above everything, so a promotion may be made in the second table alone. -/
theorem related_promote_right (id : String) :
    left.table.KindsRelated related (right.promote id .classKind).table := by
  let raise (other : String) (kind : Option Kind) : Option Kind :=
    if other = id then some .classKind else kind
  refine kinds.of_entries_map (fun _ kind => kind) raise (List.map_id _).symm
    (entries_promote right id .classKind) (fun {other _ _} held => ?_)
  by_cases named : other = id
  · simp only [raise, if_pos named]
    exact respected.top _ _
  · simp only [raise, if_neg named]
    exact held

theorem related_settleInheritance {id : String} (present : id ∈ left.table.ids) (base : String) :
    (left.settleInheritance id base).table.KindsRelated related
      (right.settleInheritance id base).table := by
  have classes {other : String} (otherPresent : other ∈ left.table.ids)
      (isClass : left.table.kind? other = some .classKind) :
      right.table.kind? other = some .classKind :=
    respected.eq_class other _ (isClass ▸ kinds.kind?_related otherPresent)
  unfold settleInheritance
  by_cases basePresent : base ∈ left.table.ids
  · have inLeft : left.table.contains base = true := Table.contains_iff.mpr basePresent
    have inRight : right.table.contains base = true :=
      Table.contains_iff.mpr (kinds.ids_eq ▸ basePresent)
    simp only [inLeft, inRight, Bool.not_true, Bool.false_eq_true, if_false]
    by_cases fires : left.table.kind? id = some .classKind ∨
        left.table.kind? base = some .classKind
    · rw [if_pos fires, if_pos (fires.imp (classes present) (classes basePresent))]
      exact related_promote respected (related_promote respected kinds id) base
    · rw [if_neg fires]
      split
      · exact related_promote_right respected (related_promote_right respected kinds id) base
      · exact kinds
  · have notInLeft : left.table.contains base = false :=
      Bool.eq_false_iff.mpr (fun held => basePresent (Table.contains_iff.mp held))
    have notInRight : right.table.contains base = false :=
      Bool.eq_false_iff.mpr (fun held =>
        basePresent (kinds.ids_eq ▸ Table.contains_iff.mp held))
    simpa only [notInLeft, notInRight, Bool.not_false, if_true] using kinds

theorem related_settleEntity (id : String) :
    (left.settleEntity id).table.KindsRelated related (right.settleEntity id).table := by
  cases found : left.table.get? id with
  | none =>
    have absent : id ∉ right.table.ids := kinds.ids_eq ▸ Table.get?_eq_none_iff.mp found
    rw [settleEntity, settleEntity, found, Table.get?_eq_none_iff.mpr absent]
    exact kinds
  | some entity =>
    obtain ⟨member, rfl⟩ := Table.get?_eq_some_iff.mp found
    obtain ⟨kind, otherMember, -⟩ := kinds.exists_mem member
    have owners : (left.settleOwner entity).table.KindsRelated related
        (right.settleOwner entity).table := by
      unfold settleOwner
      split
      · exact kinds
      · exact related_settleContainer respected kinds _ _
    have leftDone := settleEntity_of_mem member
    have rightDone : right.settleEntity entity.id =
        (right.settleOwner entity).settleBase entity := by
      have done := settleEntity_of_mem otherMember
      exact done
    rw [leftDone, rightDone]
    unfold settleBase
    split
    · exact owners
    · obtain ⟨moved, movedMember⟩ := (steps_settleOwner member).mem member
      exact related_settleInheritance respected owners (List.mem_map_of_mem movedMember) _

theorem related_foldl (ids : List String) :
    (ids.foldl settleEntity left).table.KindsRelated related
      (ids.foldl settleEntity right).table := by
  induction ids generalizing left right with
  | nil => exact kinds
  | cons id rest inductionHypothesis =>
    exact inductionHypothesis (related_settleEntity respected kinds id)

theorem related_sweep : left.sweep.table.KindsRelated related right.sweep.table := by
  unfold sweep
  rw [← kinds.ids_eq]
  exact related_foldl respected kinds left.table.ids

theorem related_iterate (rounds : Nat) :
    (sweep^[rounds] left).table.KindsRelated related (sweep^[rounds] right).table := by
  induction rounds generalizing left right with
  | zero => exact kinds
  | succ rounds inductionHypothesis =>
    exact inductionHypothesis (related_sweep respected kinds)

omit respected kinds

/-- Sweeping until nothing changes is sweeping a number of times: a sweep that changes nothing may
be repeated. -/
theorem settle_eq_iterate (rounds : Nat) (state : Resolved) :
    state.settle rounds = sweep^[rounds] state := by
  induction rounds generalizing state with
  | zero => rfl
  | succ rounds inductionHypothesis =>
    unfold settle
    by_cases unchanged : state.sweep.promotions.length = state.promotions.length
    · have same : state.sweep = state := (steps_sweep state).eq_of_length_eq unchanged
      simp only [if_pos unchanged]
      rw [Function.iterate_fixed same, same]
    · simp only [if_neg unchanged]
      exact inductionHypothesis state.sweep

end Resolved

namespace Table

theorem resolve_fixedPoint_eq_iterate {table : Table} {rounds : Nat}
    (enough : table.room < rounds) :
    table.resolve .fixedPoint = Resolved.sweep^[rounds] ⟨table, []⟩ := by
  have ended : (table.resolve .fixedPoint).sweep = table.resolve .fixedPoint :=
    (Resolved.steps_sweep _).eq_of_not_allowed (Resolved.sweepsTo_resolve table).not_allowed
  obtain ⟨more, rfl⟩ := Nat.exists_eq_add_of_le' (Nat.succ_le_of_lt enough)
  rw [Function.iterate_add_apply, ← Resolved.settle_eq_iterate (table.room + 1)]
  exact (Function.iterate_fixed ended more).symm

/-- The two corrections may take different numbers of sweeps, but neither minds some more. -/
theorem KindsRelated.resolve {related : String → Option Kind → Option Kind → Prop}
    (respected : Kind.Respected related) {first second : Table}
    (kinds : first.KindsRelated related second) (resolution : Resolution) :
    (first.resolve resolution).table.KindsRelated related (second.resolve resolution).table := by
  cases resolution with
  | singleSweep =>
    have start : (Resolved.mk first []).table.KindsRelated related (Resolved.mk second []).table :=
      kinds
    exact Resolved.related_sweep respected start
  | fixedPoint =>
    have firstEnough : first.room < first.room + second.room + 1 := by omega
    have secondEnough : second.room < first.room + second.room + 1 := by omega
    rw [resolve_fixedPoint_eq_iterate firstEnough, resolve_fixedPoint_eq_iterate secondEnough]
    exact Resolved.related_iterate respected kinds _

/-! ### Raising kinds -/

/-- Two tables that differ in kinds alone, none of the first being above that of the second. -/
def Below : Table → Table → Prop :=
  KindsRelated (fun _ => Kind.AtMost)

end Table

theorem Kind.respected_atMost : Kind.Respected (fun _ => Kind.AtMost) where
  top _ _ := Or.inr (Or.inl rfl)
  eq_class := by
    rintro id kind (same | same | ⟨-, same | same⟩)
    · exact same.symm
    · exact same
    · cases same
    · cases same
  container := by
    rintro id lower upper instanceMember (rfl | rfl | ⟨rfl, rfl | rfl⟩)
    · exact Or.inl rfl
    · exact Or.inr (Or.inl rfl)
    · exact Or.inl rfl
    · exact Or.inl rfl

/-- Corrected kinds are not below those at the start. -/
theorem Resolved.Steps.below {table : Table} {state : Resolved} (steps : Steps ⟨table, []⟩ state) :
    table.Below state.table := by
  rw [Table.Below, Table.KindsRelated, steps.entries_eq.1, List.forall₂_map_right_iff,
    List.forall₂_same]
  intro entity member
  refine ⟨(Promotion.replay_eq_withKind _ entity).symm, ?_⟩
  rcases Table.justified_of_steps steps member with same | ⟨same, kind, -⟩ | ⟨same, -⟩
  · exact Or.inl same.symm
  · exact Or.inr (Or.inr ⟨same, kind⟩)
  · exact Or.inr (Or.inl same)

/-! ### Annotating one entity -/

/-- What annotating an entity as a namespace or a class may do to its kind: anything but take a
class back. -/
def Kind.Annotated (before after : Option Kind) : Prop :=
  before = after ∨ after = some .classKind ∨
    (after = some .namespaceKind ∧ before ≠ some .classKind)

theorem Kind.respected_annotated (id : String) :
    Kind.Respected (fun other lower upper =>
      if other = id then Kind.Annotated lower upper else Kind.AtMost lower upper) where
  top other kind := by
    split
    · exact Or.inr (Or.inl rfl)
    · exact Or.inr (Or.inl rfl)
  eq_class := by
    intro other kind held
    split at held
    · rcases held with same | same | ⟨-, same⟩
      · exact same.symm
      · exact same
      · exact absurd rfl same
    · exact Kind.respected_atMost.eq_class other kind held
  container := by
    intro other lower upper instanceMember held
    split at held
    · rename_i named
      rw [if_pos named]
      rcases held with rfl | rfl | ⟨rfl, notClass⟩
      · exact Or.inl rfl
      · exact Or.inr (Or.inl rfl)
      · cases instanceMember with
        | true => exact Or.inr (Or.inl rfl)
        | false =>
          refine Or.inr (Or.inr ⟨rfl, ?_⟩)
          unfold Resolved.containerKind
          split <;> simp_all
    · rename_i named
      rw [if_neg named]
      exact Kind.respected_atMost.container other lower upper instanceMember held

theorem Table.kindsRelated_setKind {table : Table} {id : String} {kind : Kind}
    (allowed : kind = .namespaceKind ∨ kind = .classKind)
    (kept : table.kind? id = some .classKind → kind = .classKind) :
    table.KindsRelated (fun other lower upper =>
      if other = id then Kind.Annotated lower upper else Kind.AtMost lower upper)
      (table.setKind id (some kind)) := by
  rw [KindsRelated, entries_setKind, List.forall₂_map_right_iff, List.forall₂_same]
  intro entity member
  by_cases named : entity.id = id
  · simp only [if_pos named]
    refine ⟨rfl, ?_⟩
    rw [← named, Resolved.kind?_of_mem member] at kept
    rcases allowed with rfl | rfl
    · exact Or.inr (Or.inr ⟨rfl, fun isClass => by cases kept isClass⟩)
    · exact Or.inr (Or.inl rfl)
  · simp only [if_neg named]
    exact ⟨rfl, Or.inl rfl⟩

/-- Correcting kinds is monotone, in one sweep and to the end: if two tables differ in kinds alone
and no kind of the first is above that of the second, the same holds of the corrected tables. No
corrected kind is below the one at the start. So annotating an entity as a namespace or a class,
if it is not taken back from being a class, costs no other entity a promotion. -/
theorem resolution_is_monotone :
    (∀ (first second : Table) (resolution : Resolution), first.Below second →
      (first.resolve resolution).table.Below (second.resolve resolution).table) ∧
    (∀ (table : Table) (resolution : Resolution),
      table.Below (table.resolve resolution).table) ∧
    ∀ (table : Table) (id : String) (kind : Kind) (resolution : Resolution),
      (kind = .namespaceKind ∨ kind = .classKind) →
      (table.kind? id = some .classKind → kind = .classKind) →
      ∀ other, other ≠ id →
        Kind.AtMost ((table.resolve resolution).table.kind? other)
          (((table.setKind id (some kind)).resolve resolution).table.kind? other) := by
  refine ⟨fun first second resolution below => below.resolve Kind.respected_atMost resolution,
    fun table resolution => (Resolved.steps_resolve table resolution).below,
    fun table id kind resolution allowed kept other different => ?_⟩
  have kinds := (Table.kindsRelated_setKind allowed kept).resolve
    (Kind.respected_annotated id) resolution
  by_cases present : other ∈ (table.resolve resolution).table.ids
  · have held := kinds.kind?_related present
    rwa [if_neg different] at held
  · have absent := kinds.ids_eq ▸ present
    rw [Table.kind?, Table.get?_eq_none_iff.mpr present, Table.kind?,
      Table.get?_eq_none_iff.mpr absent]
    exact Or.inl rfl

/-- `A` inherits from `B`, which stands behind it and becomes a class. -/
def forwardTable : Table := .ofList
  [{ id := "A", name := "A", kind := some .function, inheritsFrom := some "B", source := {} },
   { id := "B", name := "B", kind := some .member, source := {} },
   { id := "B#c", name := "c", container := some "B", isInstanceMember := true, source := {} }]

theorem resolution_is_monotone_forwardTable :
    forwardTable.Below (forwardTable.setKind "B" (some .classKind)) ∧
      (forwardTable.resolve .singleSweep).table.Below
        ((forwardTable.setKind "B" (some .classKind)).resolve .singleSweep).table ∧
      (forwardTable.resolve .fixedPoint).table.Below
        ((forwardTable.setKind "B" (some .classKind)).resolve .fixedPoint).table ∧
      Kind.AtMost ((forwardTable.resolve .singleSweep).table.kind? "A")
        (((forwardTable.setKind "B" (some .classKind)).resolve .singleSweep).table.kind? "A") ∧
      (forwardTable.resolve .singleSweep).table.kind? "A" = some .function ∧
      ((forwardTable.setKind "B" (some .classKind)).resolve .singleSweep).table.kind? "A" =
        some .classKind := by
  have below : forwardTable.Below (forwardTable.setKind "B" (some .classKind)) := by
    rw [Table.Below, Table.KindsRelated, Table.entries_setKind, List.forall₂_map_right_iff,
      List.forall₂_same]
    intro entity _
    split
    · exact ⟨rfl, Or.inr (Or.inl rfl)⟩
    · exact ⟨rfl, Or.inl rfl⟩
  exact ⟨below, resolution_is_monotone.1 _ _ .singleSweep below,
    resolution_is_monotone.1 _ _ .fixedPoint below,
    resolution_is_monotone.2.2 forwardTable "B" .classKind .singleSweep (Or.inr rfl) (by decide)
      "A" (by decide), by decide, by decide⟩

end DocEntities
