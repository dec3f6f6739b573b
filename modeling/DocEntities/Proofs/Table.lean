/-
This file holds the laws of tables. A table is read through three views: the list of its
namepaths, the entity under a namepath, and the position of a namepath. The file says what
each operation does to each view, so that nothing later needs to look at the index.

The bridge between the views is `Table.get?_eq_some_iff`: an entity is found under a namepath
exactly if it is an entry with that namepath. It rests on the agreement of index and entries
that a table carries.
-/

import DocEntities.Table
import Mathlib.Data.List.Induction

namespace DocEntities

/-! ### Entities with another kind -/

@[simp]
theorem Entity.withKind_id (entity : Entity) (kind : Option Kind) :
    (entity.withKind kind).id = entity.id := rfl

@[simp]
theorem Entity.withKind_kind (entity : Entity) (kind : Option Kind) :
    (entity.withKind kind).kind = kind := rfl

@[simp]
theorem Entity.withKind_container (entity : Entity) (kind : Option Kind) :
    (entity.withKind kind).container = entity.container := rfl

@[simp]
theorem Entity.withKind_isInstanceMember (entity : Entity) (kind : Option Kind) :
    (entity.withKind kind).isInstanceMember = entity.isInstanceMember := rfl

@[simp]
theorem Entity.withKind_inheritsFrom (entity : Entity) (kind : Option Kind) :
    (entity.withKind kind).inheritsFrom = entity.inheritsFrom := rfl

@[simp]
theorem Entity.withKind_source (entity : Entity) (kind : Option Kind) :
    (entity.withKind kind).source = entity.source := rfl

@[simp]
theorem Entity.withKind_withKind (entity : Entity) (first second : Option Kind) :
    (entity.withKind first).withKind second = entity.withKind second := rfl

@[simp]
theorem Entity.withKind_self (entity : Entity) : entity.withKind entity.kind = entity := rfl

/-! ### First occurrences of namepaths -/

/-- A namepath that comes last is kept if it was not there before. -/
theorem eraseDups_concat (ids : List String) (id : String) :
    (ids ++ [id]).eraseDups = if id ∈ ids then ids.eraseDups else ids.eraseDups ++ [id] := by
  rw [List.eraseDups_append]
  by_cases present : id ∈ ids
  · rw [if_pos present]
    simp [List.removeAll, present]
  · rw [if_neg present]
    simp [List.removeAll, present, List.eraseDups_cons]

theorem eraseDups_of_nodup {ids : List String} (distinct : ids.Nodup) : ids.eraseDups = ids := by
  induction ids using List.reverseRec with
  | nil => rfl
  | append_singleton rest id inductionHypothesis =>
    obtain ⟨restDistinct, -, apart⟩ := List.nodup_append.mp distinct
    have fresh : id ∉ rest := fun present => apart id present id List.mem_cons_self rfl
    rw [eraseDups_concat, if_neg fresh, inductionHypothesis restDistinct]

/-- First occurrences may be picked part by part. -/
theorem eraseDups_append_eraseDups {first : List String} (distinct : first.eraseDups.Nodup)
    (second : List String) :
    (first.eraseDups ++ second.eraseDups).eraseDups = (first ++ second).eraseDups := by
  induction second using List.reverseRec with
  | nil =>
    rw [List.eraseDups_nil, List.append_nil, List.append_nil, eraseDups_of_nodup distinct]
  | append_singleton rest id inductionHypothesis =>
    rw [← List.append_assoc, eraseDups_concat, eraseDups_concat]
    by_cases inRest : id ∈ rest
    · rw [if_pos inRest, if_pos (List.mem_append_right first inRest), inductionHypothesis]
    · rw [if_neg inRest, ← List.append_assoc, eraseDups_concat, inductionHypothesis]
      simp only [List.mem_append, List.mem_eraseDups]

namespace Table

/-! ### Views of a table -/

theorem ids_nodup (table : Table) : table.ids.Nodup :=
  table.fits.nodup

/-- The index gives the places of the entries, and no others. -/
theorem position?_eq_some_iff {table : Table} {id : String} {place : Nat} :
    table.position? id = some place ↔
      ∃ entity, table.entries[place]? = some entity ∧ entity.id = id := by
  rw [position?, table.fits id place, List.getElem?_map, Option.map_eq_some_iff]

/-- Namepaths that are only added behind others keep the positions of those there. -/
theorem position?_of_ids_prefix {table later : Table} (before : table.ids <+: later.ids)
    {id : String} {place : Nat} (placed : table.position? id = some place) :
    later.position? id = some place := by
  have held : table.ids[place]? = some id := (table.fits id place).mp placed
  have bound := (List.getElem?_eq_some_iff.mp held).1
  obtain ⟨added, equal⟩ := before
  refine (later.fits id place).mpr ?_
  show later.ids[place]? = some id
  rw [← equal, List.getElem?_append_left bound, held]

/-- Looking a namepath up finds the entry that has it. -/
theorem get?_eq_some_iff {table : Table} {id : String} {entity : Entity} :
    table.get? id = some entity ↔ entity ∈ table.entries ∧ entity.id = id := by
  constructor
  · intro found
    obtain ⟨place, placed, held⟩ := Option.bind_eq_some_iff.mp found
    obtain ⟨other, otherHeld, named⟩ := position?_eq_some_iff.mp placed
    rw [held, Option.some.injEq] at otherHeld
    exact ⟨List.mem_of_getElem? held, otherHeld ▸ named⟩
  · rintro ⟨member, named⟩
    obtain ⟨place, held⟩ := List.mem_iff_getElem?.mp member
    rw [get?, position?_eq_some_iff.mpr ⟨entity, held, named⟩]
    exact held

theorem get?_of_mem {table : Table} {entity : Entity} (member : entity ∈ table.entries) :
    table.get? entity.id = some entity :=
  get?_eq_some_iff.mpr ⟨member, rfl⟩

theorem get?_isSome_iff {table : Table} {id : String} :
    (table.get? id).isSome ↔ id ∈ table.ids := by
  rw [Option.isSome_iff_exists, ids, List.mem_map]
  exact exists_congr (fun entity => get?_eq_some_iff)

theorem get?_eq_none_iff {table : Table} {id : String} :
    table.get? id = none ↔ id ∉ table.ids := by
  rw [← get?_isSome_iff, Option.not_isSome_iff_eq_none]

theorem position?_eq_none_iff {table : Table} {id : String} :
    table.position? id = none ↔ id ∉ table.ids := by
  rw [← get?_eq_none_iff, get?, Option.bind_eq_none_iff]
  constructor
  · intro absent place placed
    rw [absent] at placed
    cases placed
  · intro missing
    cases placed : table.position? id with
    | none => rfl
    | some place =>
      obtain ⟨entity, held, -⟩ := position?_eq_some_iff.mp placed
      rw [missing place placed] at held
      cases held

theorem contains_iff {table : Table} {id : String} :
    table.contains id = true ↔ id ∈ table.ids := by
  rw [contains, Std.ExtTreeMap.contains_eq_isSome_getElem?]
  cases placed : table.index[id]? with
  | none => simpa using position?_eq_none_iff.mp placed
  | some place =>
    obtain ⟨entity, held, named⟩ := position?_eq_some_iff.mp placed
    exact ⟨fun _ => List.mem_map.mpr ⟨entity, List.mem_of_getElem? held, named⟩, fun _ => rfl⟩

/-- Two entries of one namepath are one entry. -/
theorem eq_of_mem_of_id_eq {table : Table} {first second : Entity}
    (firstMember : first ∈ table.entries) (secondMember : second ∈ table.entries)
    (same : first.id = second.id) : first = second := by
  have found := get?_of_mem firstMember
  rw [same, get?_of_mem secondMember, Option.some.injEq] at found
  exact found.symm

/-- The namepaths leave no choice for the index. -/
theorem index_of_ids_eq {first second : Table} (same : first.ids = second.ids) :
    first.index = second.index := by
  refine Std.ExtTreeMap.ext_getElem? (fun id => Option.ext (fun place => ?_))
  rw [first.fits id place, second.fits id place]
  show first.ids[place]? = some id ↔ second.ids[place]? = some id
  rw [same]

/-! ### Storing an entity -/

theorem entries_insert_of_some {table : Table} {entity : Entity} {place : Nat}
    (placed : table.position? entity.id = some place) :
    (table.insert entity).entries = table.entries.set place entity := by
  simp only [insert, placed]

theorem entries_insert_of_none {table : Table} {entity : Entity}
    (absent : table.position? entity.id = none) :
    (table.insert entity).entries = table.entries ++ [entity] := by
  simp only [insert, absent]

/-- Storing an entity leaves the entries of other namepaths and puts the entity beside them. -/
theorem mem_entries_insert {table : Table} {entity other : Entity} :
    other ∈ (table.insert entity).entries ↔
      other = entity ∨ (other ∈ table.entries ∧ other.id ≠ entity.id) := by
  cases placed : table.position? entity.id with
  | none =>
    have absent := position?_eq_none_iff.mp placed
    simp only [entries_insert_of_none placed, List.mem_append, List.mem_singleton]
    constructor
    · rintro (member | same)
      · exact Or.inr ⟨member, fun equal => absent (equal ▸ List.mem_map_of_mem member)⟩
      · exact Or.inl same
    · rintro (same | ⟨member, -⟩)
      · exact Or.inr same
      · exact Or.inl member
  | some place =>
    obtain ⟨previous, held, named⟩ := position?_eq_some_iff.mp placed
    have bound := (List.getElem?_eq_some_iff.mp held).1
    simp only [entries_insert_of_some placed, List.mem_iff_getElem?, List.getElem?_set]
    constructor
    · rintro ⟨otherPlace, otherHeld⟩
      by_cases same : place = otherPlace
      · rw [if_pos same, if_pos bound, Option.some.injEq] at otherHeld
        exact Or.inl otherHeld.symm
      · rw [if_neg same] at otherHeld
        refine Or.inr ⟨⟨otherPlace, otherHeld⟩, fun equal => same ?_⟩
        have otherPlaced := position?_eq_some_iff.mpr ⟨other, otherHeld, equal⟩
        rw [placed, Option.some.injEq] at otherPlaced
        exact otherPlaced
    · rintro (same | ⟨⟨otherPlace, otherHeld⟩, different⟩)
      · exact ⟨place, by rw [if_pos rfl, if_pos bound, same]⟩
      · refine ⟨otherPlace, ?_⟩
        rw [if_neg, otherHeld]
        rintro rfl
        rw [held, Option.some.injEq] at otherHeld
        exact different (otherHeld ▸ named)

/-- The entity that was stored last under a namepath is found there. -/
theorem get?_insert (table : Table) (entity : Entity) (id : String) :
    (table.insert entity).get? id = if entity.id = id then some entity else table.get? id := by
  by_cases same : entity.id = id
  · rw [if_pos same]
    exact get?_eq_some_iff.mpr ⟨mem_entries_insert.mpr (Or.inl rfl), same⟩
  · rw [if_neg same]
    refine Option.ext (fun other => ?_)
    rw [get?_eq_some_iff, get?_eq_some_iff, mem_entries_insert]
    constructor
    · rintro ⟨stored | ⟨member, -⟩, named⟩
      · exact absurd (stored ▸ named) same
      · exact ⟨member, named⟩
    · rintro ⟨member, named⟩
      exact ⟨Or.inr ⟨member, fun equal => same (equal ▸ named)⟩, named⟩

/-- Storing an entity adds its namepath behind all others, unless it is there. -/
theorem ids_insert (table : Table) (entity : Entity) :
    (table.insert entity).ids =
      if entity.id ∈ table.ids then table.ids else table.ids ++ [entity.id] := by
  cases placed : table.position? entity.id with
  | none =>
    rw [if_neg (position?_eq_none_iff.mp placed), ids, entries_insert_of_none placed]
    simp only [List.map_append, List.map_cons, List.map_nil, ids]
  | some place =>
    obtain ⟨previous, held, named⟩ := position?_eq_some_iff.mp placed
    have present : entity.id ∈ table.ids :=
      List.mem_map.mpr ⟨previous, List.mem_of_getElem? held, named⟩
    rw [if_pos present, ids, entries_insert_of_some placed]
    exact ids_set placed

theorem ids_prefix_insert (table : Table) (entity : Entity) :
    table.ids <+: (table.insert entity).ids := by
  rw [ids_insert]
  split
  · exact List.prefix_rfl
  · exact List.prefix_append _ _

theorem collisions_insert_of_some {table : Table} {entity previous : Entity}
    (found : table.get? entity.id = some previous) :
    (table.insert entity).collisions =
      table.collisions ++ [⟨entity.id, previous.source, entity.source⟩] := by
  simp only [insert, found, (get?_eq_some_iff.mp found).2]

theorem collisions_insert_of_none {table : Table} {entity : Entity}
    (absent : table.get? entity.id = none) :
    (table.insert entity).collisions = table.collisions := by
  simp only [insert, absent]

/-! ### Assigning a kind -/

/-- Assigning a kind changes the kind of one namepath and nothing else. -/
theorem entries_setKind (table : Table) (id : String) (kind : Option Kind) :
    (table.setKind id kind).entries =
      table.entries.map
        (fun entity => if entity.id = id then entity.withKind kind else entity) := by
  refine List.ext_getElem? (fun place => ?_)
  rw [List.getElem?_map]
  simp only [setKind]
  cases placed : table.position? id with
  | none =>
    cases held : table.entries[place]? with
    | none => rfl
    | some entity =>
      have different : entity.id ≠ id := fun named => by
        rw [position?_eq_some_iff.mpr ⟨entity, held, named⟩] at placed
        cases placed
      simp only [Option.map_some, if_neg different]
  | some idPlace =>
    simp only [List.getElem?_modify]
    cases held : table.entries[place]? with
    | none => rfl
    | some entity =>
      have here : idPlace = place ↔ entity.id = id := by
        constructor
        · rintro rfl
          obtain ⟨other, otherHeld, named⟩ := position?_eq_some_iff.mp placed
          rw [held, Option.some.injEq] at otherHeld
          exact otherHeld ▸ named
        · intro named
          rw [position?_eq_some_iff.mpr ⟨entity, held, named⟩, Option.some.injEq] at placed
          exact placed.symm
      simp only [here, Option.map_some]
      split <;> rfl

theorem ids_setKind (table : Table) (id : String) (kind : Option Kind) :
    (table.setKind id kind).ids = table.ids := by
  rw [ids, entries_setKind, ids, List.map_map]
  refine List.map_congr_left (fun entity _ => ?_)
  simp only [Function.comp_apply]
  split <;> rfl

/-- A table whose entries are changed one by one, namepaths aside, is looked up as before. -/
theorem get?_of_entries_map {table later : Table} {change : Entity → Entity}
    (keeps : ∀ entity, (change entity).id = entity.id)
    (entries : later.entries = table.entries.map change) (id : String) :
    later.get? id = (table.get? id).map change := by
  refine Option.ext (fun other => ?_)
  rw [get?_eq_some_iff, entries, Option.map_eq_some_iff, List.mem_map]
  constructor
  · rintro ⟨⟨entity, member, rfl⟩, named⟩
    exact ⟨entity, get?_eq_some_iff.mpr ⟨member, (keeps entity).symm.trans named⟩, rfl⟩
  · rintro ⟨entity, found, rfl⟩
    obtain ⟨member, named⟩ := get?_eq_some_iff.mp found
    exact ⟨⟨entity, member, rfl⟩, (keeps entity).trans named⟩

theorem get?_setKind (table : Table) (id : String) (kind : Option Kind) (other : String) :
    (table.setKind id kind).get? other =
      (table.get? other).map
        (fun entity => if entity.id = id then entity.withKind kind else entity) :=
  get?_of_entries_map (fun entity => by split <;> rfl) (entries_setKind table id kind) other

/-! ### Storing several entities -/

theorem insertAll_cons (table : Table) (entity : Entity) (rest : List Entity) :
    table.insertAll (entity :: rest) = (table.insert entity).insertAll rest := rfl

/-- Of several entities with one namepath the last is found. -/
theorem get?_insertAll (table : Table) (entities : List Entity) (id : String) :
    (table.insertAll entities).get? id =
      (entities.reverse.find? (fun entity => entity.id = id)).or (table.get? id) := by
  induction entities generalizing table with
  | nil => rfl
  | cons entity rest inductionHypothesis =>
    rw [insertAll_cons, inductionHypothesis, get?_insert, List.reverse_cons, List.find?_append,
      Option.or_assoc, List.find?_singleton]
    by_cases same : entity.id = id
    · rw [if_pos same, if_pos (decide_eq_true same), Option.some_or]
    · rw [if_neg same, if_neg (by simpa using same), Option.none_or]

theorem ids_prefix_insertAll (table : Table) (entities : List Entity) :
    table.ids <+: (table.insertAll entities).ids := by
  induction entities generalizing table with
  | nil => exact List.prefix_rfl
  | cons entity rest inductionHypothesis =>
    exact (ids_prefix_insert table entity).trans (inductionHypothesis (table.insert entity))

/-- The namepaths of a table stand in the order in which they first occur. -/
theorem ids_insertAll (table : Table) (entities : List Entity) :
    (table.insertAll entities).ids = (table.ids ++ entities.map Entity.id).eraseDups := by
  induction entities using List.reverseRec with
  | nil =>
    rw [List.map_nil, List.append_nil, eraseDups_of_nodup table.ids_nodup]
    rfl
  | append_singleton rest entity inductionHypothesis =>
    have last : table.insertAll (rest ++ [entity]) = (table.insertAll rest).insert entity := by
      rw [insertAll, List.foldl_append]
      rfl
    rw [last, ids_insert, inductionHypothesis, List.map_append, ← List.append_assoc, List.map_cons,
      List.map_nil, eraseDups_concat]
    simp only [List.mem_eraseDups]

/-- Every stored entity is either in the table or has left a collision. -/
theorem size_add_collisions_insert (table : Table) (entity : Entity) :
    (table.insert entity).size + (table.insert entity).collisions.length =
      table.size + table.collisions.length + 1 := by
  have sizes : ∀ some : Table, some.size = some.ids.length := fun some => by
    rw [size, ids, List.length_map]
  rw [sizes, sizes, ids_insert]
  cases found : table.get? entity.id with
  | none =>
    rw [if_neg (get?_eq_none_iff.mp found), collisions_insert_of_none found, List.length_append,
      List.length_singleton]
    omega
  | some previous =>
    have present := get?_isSome_iff.mp (Option.isSome_iff_exists.mpr ⟨previous, found⟩)
    rw [if_pos present, collisions_insert_of_some found, List.length_append,
      List.length_singleton]
    omega

theorem size_add_collisions_insertAll (table : Table) (entities : List Entity) :
    (table.insertAll entities).size + (table.insertAll entities).collisions.length =
      table.size + table.collisions.length + entities.length := by
  induction entities generalizing table with
  | nil => rfl
  | cons entity rest inductionHypothesis =>
    rw [insertAll_cons, inductionHypothesis, size_add_collisions_insert, List.length_cons]
    omega

/-! ### Taking in another table -/

/-- Looking the entries of a table through from either end finds what the index finds. -/
theorem find?_reverse_entries (table : Table) (id : String) :
    table.entries.reverse.find? (fun entity => entity.id = id) = table.get? id := by
  cases found : table.get? id with
  | none =>
    refine List.find?_eq_none.mpr (fun entity member => ?_)
    have absent := get?_eq_none_iff.mp found
    simpa using fun named : entity.id = id =>
      absent (named ▸ List.mem_map_of_mem (List.mem_reverse.mp member))
  | some entity =>
    obtain ⟨member, named⟩ := get?_eq_some_iff.mp found
    obtain ⟨other, otherFound⟩ : ∃ other,
        table.entries.reverse.find? (fun entity => entity.id = id) = some other := by
      refine Option.isSome_iff_exists.mp (List.find?_isSome.mpr ⟨entity, ?_, by simpa using named⟩)
      exact List.mem_reverse.mpr member
    have otherMember := List.mem_reverse.mp (List.mem_of_find?_eq_some otherFound)
    have otherNamed : other.id = id := by simpa using List.find?_some otherFound
    rw [otherFound, eq_of_mem_of_id_eq otherMember member (otherNamed.trans named.symm)]

/-- What the other table holds under a namepath wins. -/
theorem get?_extend (table other : Table) (id : String) :
    (table.extend other).get? id = (other.get? id).or (table.get? id) := by
  rw [extend, get?_insertAll, find?_reverse_entries]
  rfl

theorem ids_prefix_extend (table other : Table) : table.ids <+: (table.extend other).ids :=
  ids_prefix_insertAll { table with collisions := table.collisions ++ other.collisions }
    other.entries

theorem ids_extend (table other : Table) :
    (table.extend other).ids = (table.ids ++ other.ids).eraseDups :=
  ids_insertAll { table with collisions := table.collisions ++ other.collisions } other.entries

theorem size_add_collisions_extend (table other : Table) :
    (table.extend other).size + (table.extend other).collisions.length =
      table.size + table.collisions.length + (other.size + other.collisions.length) := by
  have counted := size_add_collisions_insertAll
    { table with collisions := table.collisions ++ other.collisions } other.entries
  simp only [size, List.length_append] at counted
  rw [extend, size, size, size]
  omega

/-! ### Collisions of a namepath -/

/-- The collisions of a namepath, in the order in which they were recorded. -/
def collisionsOf (table : Table) (id : String) : List Collision :=
  table.collisions.filter (fun collision => collision.id = id)

/-- The collision of storing an entity where another one is, if one is there. -/
def collision? (previous replacement : Option Entity) (id : String) : Option Collision :=
  previous.bind fun old => replacement.map fun new => ⟨id, old.source, new.source⟩

theorem collisionsOf_insert (table : Table) (entity : Entity) (id : String) :
    (table.insert entity).collisionsOf id =
      table.collisionsOf id ++
        if entity.id = id then (collision? (table.get? id) (some entity) id).toList else [] := by
  by_cases same : entity.id = id
  · subst same
    cases found : table.get? entity.id with
    | none => simp [collisionsOf, collisions_insert_of_none found, collision?]
    | some previous =>
      simp [collisionsOf, collisions_insert_of_some found, collision?]
  · rw [if_neg same, List.append_nil]
    cases found : table.get? entity.id with
    | none => rw [collisionsOf, collisions_insert_of_none found, collisionsOf]
    | some previous =>
      simp [collisionsOf, collisions_insert_of_some found, same]

/-- Entities of distinct namepaths leave at most one collision of each. -/
theorem collisionsOf_insertAll (table : Table) {entities : List Entity}
    (distinct : (entities.map Entity.id).Nodup) (id : String) :
    (table.insertAll entities).collisionsOf id =
      table.collisionsOf id ++
        (collision? (table.get? id) (entities.reverse.find? (fun entity => entity.id = id))
          id).toList := by
  induction entities generalizing table with
  | nil => cases table.get? id <;> simp [insertAll, collision?]
  | cons entity rest inductionHypothesis =>
    obtain ⟨fresh, restDistinct⟩ := List.nodup_cons.mp distinct
    rw [insertAll_cons, inductionHypothesis _ restDistinct, collisionsOf_insert, get?_insert,
      List.reverse_cons, List.find?_append, List.find?_singleton]
    by_cases same : entity.id = id
    · have missing : rest.reverse.find? (fun entity => entity.id = id) = none := by
        refine List.find?_eq_none.mpr (fun other member => ?_)
        simpa using fun named : other.id = id =>
          fresh (same ▸ named ▸ List.mem_map_of_mem (List.mem_reverse.mp member))
      rw [missing, if_pos same, if_pos (decide_eq_true same)]
      simp [collision?]
    · rw [if_neg same, if_neg same, if_neg (by simpa using same), List.append_nil, Option.or_none]

/-- Taking in a table keeps its collisions, and adds one for each namepath of both. -/
theorem collisionsOf_extend (table other : Table) (id : String) :
    (table.extend other).collisionsOf id =
      table.collisionsOf id ++ other.collisionsOf id ++
        (collision? (table.get? id) (other.get? id) id).toList := by
  rw [extend, collisionsOf_insertAll _ other.ids_nodup, find?_reverse_entries]
  simp only [collisionsOf, List.filter_append]
  rfl

end Table

end DocEntities
