/-
This file corrects the kinds of entities by what the table says of their relations.
A comment is read alone, so `var a = {}` documented before `a.prototype.b` is first taken
for a member. A sweep goes once through the table in its order, with three rules:

- a container that was taken for a function or a member becomes a namespace;
- a namespace that contains an instance member becomes a class;
- if one side of an inheritance is a class, so is the other.

Kinds only move towards class, and an entity can be promoted at most as often as its kind
has room, so sweeping until nothing changes ends within the room of the table.
-/

import DocEntities.Table

namespace DocEntities

/-- How often the rules are applied. -/
inductive Resolution where
  /-- One sweep. Promotions that depend on an entity further down are not followed. -/
  | singleSweep
  /-- Sweeps until no kind changes. -/
  | fixedPoint
  deriving DecidableEq, Repr, Inhabited

/-- An entity that changed its kind. -/
structure Promotion where
  id : String
  before : Option Kind
  after : Kind
  deriving DecidableEq, Repr, Inhabited

/-- How many promotions an entity of a kind can still take. -/
def kindRoom : Option Kind → Nat
  | some .classKind => 0
  | some .function => 2
  | some .member => 2
  | _ => 1

/-- A table and the promotions made in it so far. -/
structure Resolved where
  table : Table
  promotions : List Promotion := []
  deriving DecidableEq, Repr, Inhabited

namespace Resolved

/-- Gives an entity of the table a kind, unless it has that kind already. -/
def promote (state : Resolved) (id : String) (kind : Kind) : Resolved :=
  match state.table.get? id with
  | none => state
  | some entity =>
    if entity.kind = some kind then state
    else
      { table := state.table.setKind id (some kind)
        promotions := state.promotions ++ [⟨id, entity.kind, kind⟩] }

/-- A container `owner` that was taken for a function or a member becomes a namespace. -/
def namespaceRule (state : Resolved) (owner : String) : Resolved :=
  if state.table.kind? owner = some .function ∨ state.table.kind? owner = some .member then
    state.promote owner .namespaceKind
  else state

/-- A namespace `owner` that contains an instance member becomes a class. -/
def classRule (state : Resolved) (owner : String) (instanceMember : Bool) : Resolved :=
  if state.table.kind? owner = some .namespaceKind ∧ instanceMember then
    state.promote owner .classKind
  else state

/-- The rules for the container `owner` of an entity. -/
def settleContainer (state : Resolved) (owner : String) (instanceMember : Bool) : Resolved :=
  (state.namespaceRule owner).classRule owner instanceMember

/-- The rule for an entity and the entity it inherits from. -/
def settleInheritance (state : Resolved) (id base : String) : Resolved :=
  if !state.table.contains base then state
  else if state.table.kind? id = some .classKind ∨ state.table.kind? base = some .classKind then
    (state.promote id .classKind).promote base .classKind
  else state

/-- The rules for the container of an entity, if it has one. -/
def settleOwner (state : Resolved) (entity : Entity) : Resolved :=
  match entity.container with
  | none => state
  | some owner => state.settleContainer owner entity.isInstanceMember

/-- The rule for what an entity inherits from, if it inherits. -/
def settleBase (state : Resolved) (entity : Entity) : Resolved :=
  match entity.inheritsFrom with
  | none => state
  | some base => state.settleInheritance entity.id base

/-- The rules for one entity. -/
def settleEntity (state : Resolved) (id : String) : Resolved :=
  match state.table.get? id with
  | none => state
  | some entity => (state.settleOwner entity).settleBase entity

/-- The rules for every entity, in table order. -/
def sweep (state : Resolved) : Resolved :=
  state.table.ids.foldl settleEntity state

/-- Sweeps until one changes nothing, at most `rounds` times. -/
def settle : Nat → Resolved → Resolved
  | 0, state => state
  | rounds + 1, state =>
    let swept := state.sweep
    if swept.promotions.length = state.promotions.length then swept else settle rounds swept

end Resolved

namespace Table

/-- How many promotions the entities of a table can take at most. -/
def room (table : Table) : Nat :=
  (table.entries.map (fun entry => kindRoom entry.kind)).foldr (· + ·) 0

/-- The table with its kinds corrected, and the promotions in the order they were made. -/
def resolve (table : Table) : Resolution → Resolved
  | .singleSweep => (Resolved.mk table []).sweep
  | .fixedPoint => (Resolved.mk table []).settle (table.room + 1)

end Table

end DocEntities
