/-
This file holds the scope of a walk through code: the containers whose members are being
looked at, as the segments of their dotted path, and the number of function bodies around.
When `c` is looked at in `a.b = { c: d }`, the containers are `a` and `b`. A path says where
a value ends up only outside every function.
-/

import DocEntities.Text.Split

namespace DocEntities

/-- Where a walk through code stands. -/
structure Scope where
  containers : List String := []
  depth : Nat := 0
  deriving DecidableEq, Repr, Inhabited

namespace Scope

/-- The scope outside everything. -/
def outermost : Scope := {}

/-- Whether no function is around. -/
def isTopLevel (scope : Scope) : Bool :=
  scope.depth == 0

/-- Goes into containers. -/
def push (scope : Scope) (segments : List String) : Scope :=
  { scope with containers := scope.containers ++ segments }

/-- Leaves the innermost `count` containers, or all if there are fewer. -/
def pop (scope : Scope) (count : Nat) : Scope :=
  { scope with containers := scope.containers.take (scope.containers.length - count) }

/-- Goes into a function body. -/
def enter (scope : Scope) : Scope :=
  { scope with depth := scope.depth + 1 }

/-- Leaves a function body, if there is one. -/
def exit (scope : Scope) : Scope :=
  { scope with depth := scope.depth - 1 }

/-- The dotted path of the containers. -/
def path (scope : Scope) : String :=
  Text.join "." scope.containers

/-- A path seen from outside the containers. -/
def qualify (scope : Scope) (inner : String) : String :=
  if scope.containers.isEmpty then inner else scope.path ++ "." ++ inner

end Scope

end DocEntities
