/-
This file follows tables through their whole life: from the empty table, by storing entities,
by taking in other tables that have a history of their own, by assigning kinds and by
correcting them. Two accounts are given of every history.

The first reads a table as a map that keeps the order of first insertion: what it holds under
a namepath is what was written there last, with the kinds it was given since, and the order is
that of the first occurrences among all entities that were ever stored.

The second is a ledger of definitions. Each entity that was ever stored is either still there
or has been replaced, and every replacement is recorded. The ledger balances for each namepath,
also where a table with collisions of its own is taken in.
-/

import DocEntities.Proofs.Promotion

namespace DocEntities

/-- How a table came about. -/
inductive History where
  | start
  | insert (before : History) (entity : Entity)
  /-- Takes in a table that came about by `other`. -/
  | extend (before other : History)
  | setKind (before : History) (id : String) (kind : Option Kind)
  | resolve (before : History) (resolution : Resolution)

namespace History

/-- The table that a history leads to. -/
def table : History → Table
  | start => .empty
  | insert before entity => before.table.insert entity
  | extend before other => before.table.extend other.table
  | setKind before id kind => before.table.setKind id kind
  | resolve before resolution => (before.table.resolve resolution).table

/-- Every entity that was stored, in order. What was stored in a table that is taken in counts
from the moment it is taken in. -/
def inserted : History → List Entity
  | start => []
  | insert before entity => before.inserted ++ [entity]
  | extend before other => before.inserted ++ other.inserted
  | setKind before _ _ => before.inserted
  | resolve before _ => before.inserted

/-- What was written last under a namepath, with the kinds it was given since. -/
def written : History → String → Option Entity
  | start, _ => none
  | insert before entity, id => if entity.id = id then some entity else before.written id
  | extend before other, id => (other.written id).or (before.written id)
  | setKind before target kind, id =>
    if target = id then (before.written id).map (·.withKind kind) else before.written id
  | resolve before resolution, id =>
    (before.written id).map (Promotion.replay (before.table.resolve resolution).promotions)

/-- The history one operation earlier. -/
def previous? : History → Option History
  | start => none
  | insert before _ | extend before _ | setKind before _ _ | resolve before _ => some before

/-- Whether a history goes on with another one, by any number of operations. -/
def Continues : History → History → Prop :=
  Relation.ReflTransGen (fun earlier later => later.previous? = some earlier)

end History

namespace Table

/-! ### Resolved tables -/

/-- A resolved table holds under each namepath what it held, after the promotions made. -/
theorem get?_resolve (table : Table) (resolution : Resolution) (id : String) :
    (table.resolve resolution).table.get? id =
      (table.get? id).map (Promotion.replay (table.resolve resolution).promotions) :=
  get?_of_entries_map (Promotion.replay_id _)
    (Resolved.steps_resolve table resolution).entries_eq.1 id

theorem ids_resolve (table : Table) (resolution : Resolution) :
    (table.resolve resolution).table.ids = table.ids := by
  rw [ids, (Resolved.steps_resolve table resolution).entries_eq.1, List.map_map, ids]
  exact List.map_congr_left (fun entity _ => Promotion.replay_id _ entity)

theorem collisions_resolve (table : Table) (resolution : Resolution) :
    (table.resolve resolution).table.collisions = table.collisions :=
  (Resolved.steps_resolve table resolution).entries_eq.2

end Table

namespace History

/-! ### A map in the order of first insertion -/

theorem get?_table (history : History) (id : String) :
    history.table.get? id = history.written id := by
  induction history generalizing id with
  | start => rfl
  | insert before entity inductionHypothesis =>
    rw [table, Table.get?_insert, inductionHypothesis, written]
  | extend before other beforeHypothesis otherHypothesis =>
    rw [table, Table.get?_extend, beforeHypothesis, otherHypothesis, written]
  | setKind before target kind inductionHypothesis =>
    rw [table, Table.get?_setKind, written, ← inductionHypothesis]
    cases found : before.table.get? id with
    | none => simp
    | some entity =>
      obtain ⟨-, rfl⟩ := Table.get?_eq_some_iff.mp found
      by_cases same : target = entity.id
      · simp only [Option.map_some, if_pos same, if_pos same.symm]
      · simp only [Option.map_some, if_neg same, if_neg (Ne.symm same)]
  | resolve before resolution inductionHypothesis =>
    rw [table, Table.get?_resolve, inductionHypothesis, written]

/-- Kinds aside, a table holds what was stored last under a namepath. -/
theorem written_withKind (history : History) (id : String) (kind : Option Kind) :
    (history.written id).map (·.withKind kind) =
      (history.inserted.reverse.find? (fun entity => entity.id = id)).map (·.withKind kind) := by
  induction history with
  | start => rfl
  | insert before entity inductionHypothesis =>
    rw [written, inserted, List.reverse_append, List.reverse_singleton, List.singleton_append,
      List.find?_cons]
    by_cases same : entity.id = id
    · simp only [same, if_true, decide_true]
    · simp only [same, if_false, decide_false, inductionHypothesis]
  | extend before other beforeHypothesis otherHypothesis =>
    rw [written, inserted, List.reverse_append, List.find?_append, Option.map_or, Option.map_or,
      beforeHypothesis, otherHypothesis]
  | setKind before target newKind inductionHypothesis =>
    rw [written, inserted, ← inductionHypothesis]
    split
    · rw [Option.map_map]
      rfl
    · rfl
  | resolve before resolution inductionHypothesis =>
    rw [written, inserted, ← inductionHypothesis, Option.map_map]
    refine congrArg (fun change => (before.written id).map change) (funext fun entity => ?_)
    exact Promotion.replay_withKind _ entity kind

theorem ids_table (history : History) :
    history.table.ids = (history.inserted.map Entity.id).eraseDups := by
  induction history with
  | start => rfl
  | insert before entity inductionHypothesis =>
    rw [table, inserted, List.map_append, List.map_singleton, eraseDups_concat, Table.ids_insert,
      inductionHypothesis]
    simp only [List.mem_eraseDups]
  | extend before other beforeHypothesis otherHypothesis =>
    have distinct := before.table.ids_nodup
    rw [beforeHypothesis] at distinct
    rw [table, inserted, List.map_append, Table.ids_extend, beforeHypothesis, otherHypothesis,
      eraseDups_append_eraseDups distinct]
  | setKind before target kind inductionHypothesis =>
    rw [table, inserted, Table.ids_setKind, inductionHypothesis]
  | resolve before resolution inductionHypothesis =>
    rw [table, inserted, Table.ids_resolve, inductionHypothesis]

/-- Operations only add namepaths behind those there. -/
theorem ids_prefix_of_continues {history later : History} (continues : history.Continues later) :
    history.table.ids <+: later.table.ids := by
  induction continues with
  | refl => exact List.prefix_rfl
  | @tail earlier last _ step inductionHypothesis =>
    refine inductionHypothesis.trans ?_
    cases last with
    | start => cases step
    | insert before entity =>
      cases step
      exact Table.ids_prefix_insert _ entity
    | extend before other =>
      cases step
      exact Table.ids_prefix_extend _ other.table
    | setKind before target kind =>
      cases step
      exact (Table.ids_setKind _ target kind).symm ▸ List.prefix_rfl
    | resolve before resolution =>
      cases step
      exact (Table.ids_resolve _ resolution).symm ▸ List.prefix_rfl

/-- Every table is a map that keeps the order of first insertion. Its namepaths are distinct;
the index gives the place of each entry, so no look-up misses; under a namepath stands what was
written there last; a position never changes; and the order is that of first occurrence. -/
theorem table_refines_orderedMap (history : History) :
    history.table.ids.Nodup ∧
      (∀ (id : String) (place : Nat), history.table.index[id]? = some place ↔
        ∃ entity, history.table.entries[place]? = some entity ∧ entity.id = id) ∧
      (∀ id, history.table.get? id = history.written id) ∧
      (∀ id kind, (history.table.get? id).map (·.withKind kind) =
        (history.inserted.reverse.find? (fun entity => entity.id = id)).map (·.withKind kind)) ∧
      (∀ later, history.Continues later → ∀ id place,
        history.table.position? id = some place → later.table.position? id = some place) ∧
      history.table.ids = (history.inserted.map Entity.id).eraseDups := by
  refine ⟨history.table.ids_nodup, fun _ _ => Table.position?_eq_some_iff, history.get?_table,
    fun id kind => ?_, fun later continues _ _ => ?_, history.ids_table⟩
  · rw [history.get?_table, history.written_withKind]
  · exact Table.position?_of_ids_prefix (ids_prefix_of_continues continues)

/-! ### The ledger of definitions -/

/-- The origins of the definitions of a namepath that a table accounts for: those replaced, and
the one that is there. -/
def accounted (table : Table) (id : String) : List Origin :=
  (table.collisionsOf id).map Collision.previous ++ ((table.get? id).map Entity.source).toList

/-- The last collision of a namepath names what is there now. -/
def LastReplacement (table : Table) (id : String) : Prop :=
  ∀ collision, (table.collisionsOf id).getLast? = some collision →
    ∃ entity, table.get? id = some entity ∧ collision.replacement = entity.source

theorem accounted_insert (table : Table) (entity : Entity) (id : String) :
    (accounted (table.insert entity) id).Perm
      (accounted table id ++ if entity.id = id then [entity.source] else []) := by
  unfold accounted
  rw [Table.collisionsOf_insert, Table.get?_insert]
  by_cases same : entity.id = id
  · simp only [if_pos same, List.map_append, Option.map_some, Option.toList_some]
    cases table.get? id <;> simp [Table.collision?]
  · simp only [if_neg same, List.append_nil]
    exact .refl _

theorem accounted_extend (table other : Table) (id : String) :
    (accounted (table.extend other) id).Perm (accounted table id ++ accounted other id) := by
  unfold accounted
  rw [Table.collisionsOf_extend, Table.get?_extend]
  cases table.get? id with
  | none => simp [Table.collision?]
  | some previous =>
    have moved : ∀ rest : List Origin,
        ((table.collisionsOf id).map Collision.previous ++
          ((other.collisionsOf id).map Collision.previous ++ previous.source :: rest)).Perm
        ((table.collisionsOf id).map Collision.previous ++
          previous.source :: ((other.collisionsOf id).map Collision.previous ++ rest)) :=
      fun _ => List.perm_middle.append_left _
    cases other.get? id with
    | none => simpa [Table.collision?] using moved []
    | some replacement => simpa [Table.collision?] using moved [replacement.source]

theorem lastReplacement_insert {table : Table} (entity : Entity) {id : String}
    (last : LastReplacement table id) : LastReplacement (table.insert entity) id := by
  intro collision found
  rw [Table.collisionsOf_insert] at found
  rw [Table.get?_insert]
  by_cases same : entity.id = id
  · refine ⟨entity, if_pos same, ?_⟩
    rw [if_pos same] at found
    cases held : table.get? id with
    | none =>
      rw [held] at found
      obtain ⟨old, oldHeld, -⟩ := last collision (by simpa [Table.collision?] using found)
      rw [held] at oldHeld
      cases oldHeld
    | some previous =>
      simp [held, Table.collision?] at found
      rw [← found]
  · rw [if_neg same, List.append_nil] at found
    rw [if_neg same]
    exact last collision found

/-- A namepath without an entity has no collisions. -/
theorem collisionsOf_eq_nil {table : Table} {id : String} (last : LastReplacement table id)
    (absent : table.get? id = none) : table.collisionsOf id = [] := by
  cases found : (table.collisionsOf id).getLast? with
  | none => exact List.getLast?_eq_none_iff.mp found
  | some collision =>
    obtain ⟨entity, held, -⟩ := last collision found
    rw [absent] at held
    cases held

/-- Where both tables know a namepath, the collision between them comes last; where only one
does, the other has no collisions of it. -/
theorem lastReplacement_extend {table other : Table} {id : String}
    (tableLast : LastReplacement table id) (otherLast : LastReplacement other id) :
    LastReplacement (table.extend other) id := by
  intro collision found
  rw [Table.collisionsOf_extend] at found
  rw [Table.get?_extend]
  cases otherHeld : other.get? id with
  | none =>
    rw [collisionsOf_eq_nil otherLast otherHeld, otherHeld] at found
    have kept : (table.collisionsOf id).getLast? = some collision := by
      cases table.get? id <;> simpa [Table.collision?] using found
    exact tableLast collision kept
  | some replacement =>
    refine ⟨replacement, rfl, ?_⟩
    cases held : table.get? id with
    | none =>
      rw [collisionsOf_eq_nil tableLast held, held] at found
      obtain ⟨entity, entityHeld, same⟩ :=
        otherLast collision (by simpa [Table.collision?] using found)
      rw [otherHeld, Option.some.injEq] at entityHeld
      rw [same, entityHeld]
    | some previous =>
      simp [held, otherHeld, Table.collision?] at found
      rw [← found]


section

variable {table later : Table} {id : String} {change : Entity → Entity}
  (sources : ∀ entity, (change entity).source = entity.source)
  (found : later.get? id = (table.get? id).map change)
  (collisions : later.collisions = table.collisions)

include sources found collisions

/-- Nothing enters or leaves the ledger as long as definitions stay where they are. -/
theorem accounted_of_change : accounted later id = accounted table id := by
  unfold accounted Table.collisionsOf
  rw [found, collisions, Option.map_map]
  refine congrArg (fun current => _ ++ Option.toList current) ?_
  exact congrArg (fun source => (table.get? id).map source) (funext sources)

theorem lastReplacement_of_change (last : LastReplacement table id) :
    LastReplacement later id := by
  intro collision recorded
  rw [Table.collisionsOf, collisions] at recorded
  obtain ⟨entity, held, same⟩ := last collision recorded
  exact ⟨change entity, by rw [found, held, Option.map_some], by rw [same, sources]⟩

end

theorem accounted_table (history : History) (id : String) :
    ((history.inserted.filter (fun entity => entity.id = id)).map Entity.source).Perm
      (accounted history.table id) := by
  induction history with
  | start => exact .refl _
  | insert before entity inductionHypothesis =>
    refine .trans ?_ (accounted_insert before.table entity id).symm
    rw [inserted, List.filter_append, List.map_append]
    refine inductionHypothesis.append (List.Perm.of_eq ?_)
    by_cases same : entity.id = id
    · simp [same]
    · simp [same]
  | extend before other beforeHypothesis otherHypothesis =>
    refine .trans ?_ (accounted_extend before.table other.table id).symm
    rw [inserted, List.filter_append, List.map_append]
    exact beforeHypothesis.append otherHypothesis
  | setKind before target kind inductionHypothesis =>
    rw [table, accounted_of_change (fun entity => by split <;> rfl)
      (Table.get?_setKind before.table target kind id) rfl]
    exact inductionHypothesis
  | resolve before resolution inductionHypothesis =>
    rw [table, accounted_of_change (Promotion.replay_source _)
      (Table.get?_resolve before.table resolution id) (Table.collisions_resolve _ resolution)]
    exact inductionHypothesis

theorem lastReplacement_table (history : History) (id : String) :
    LastReplacement history.table id := by
  induction history with
  | start =>
    intro collision found
    cases found
  | insert before entity inductionHypothesis =>
    exact lastReplacement_insert entity inductionHypothesis
  | extend before other beforeHypothesis otherHypothesis =>
    exact lastReplacement_extend beforeHypothesis otherHypothesis
  | setKind before target kind inductionHypothesis =>
    exact lastReplacement_of_change (fun entity => by split <;> rfl)
      (Table.get?_setKind before.table target kind id) rfl inductionHypothesis
  | resolve before resolution inductionHypothesis =>
    exact lastReplacement_of_change (Promotion.replay_source _)
      (Table.get?_resolve before.table resolution id) (Table.collisions_resolve _ resolution)
      inductionHypothesis

theorem length_inserted (history : History) :
    history.inserted.length = history.table.size + history.table.collisions.length := by
  have sizes : ∀ {table later : Table}, later.ids = table.ids → later.size = table.size := by
    intro table later same
    simpa [Table.size, Table.ids] using congrArg List.length same
  induction history with
  | start => rfl
  | insert before entity inductionHypothesis =>
    rw [table, inserted, List.length_append, List.length_singleton, inductionHypothesis,
      Table.size_add_collisions_insert]
  | extend before other beforeHypothesis otherHypothesis =>
    rw [table, inserted, List.length_append, beforeHypothesis, otherHypothesis,
      Table.size_add_collisions_extend]
  | setKind before target kind inductionHypothesis =>
    rw [table, inserted, inductionHypothesis, sizes (Table.ids_setKind before.table target kind)]
    rfl
  | resolve before resolution inductionHypothesis =>
    rw [table, inserted, inductionHypothesis, sizes (Table.ids_resolve before.table resolution),
      Table.collisions_resolve]

/-- No definition is lost: of everything that was ever stored under a namepath, the origins are
those of the recorded replacements and of the entity that is there, each as often. The last
replacement is by the entity that is there, and each stored entity counts once. -/
theorem no_definition_lost (history : History) :
    (∀ id,
      ((history.inserted.filter (fun entity => entity.id = id)).map Entity.source).Perm
        (((history.table.collisions.filter (fun collision => collision.id = id)).map
            Collision.previous) ++ ((history.table.get? id).map Entity.source).toList)) ∧
      (∀ id collision,
        (history.table.collisions.filter (fun collision => collision.id = id)).getLast? =
            some collision →
          ∃ entity, history.table.get? id = some entity ∧
            collision.replacement = entity.source) ∧
      history.inserted.length = history.table.size + history.table.collisions.length :=
  ⟨history.accounted_table, history.lastReplacement_table, history.length_inserted⟩

end History

end DocEntities
