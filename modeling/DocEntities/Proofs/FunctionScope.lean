/-
This file says what a function hides. The containers around a function say nothing of where the
values inside it end up, and nearly all that code tells inside a function is told without them: it
is the same for a place in any other scope around the function. The exception is the instance flag
of a property. It is read off the whole path of containers, so a property of an object that a
method returns is an instance member if the method is reached through a prototype.

The function around a place is found on the way to it. Each step goes into a function, into
containers or nowhere, and one that does not go into a function can be taken from any other scope.
-/

import DocEntities.Proofs.CodeIdentity
import DocEntities.Proofs.Spelling

namespace DocEntities

open Script

/-! ### Steps to the places below -/

theorem Scope.push_nil (scope : Scope) : scope.push [] = scope := by
  rw [push, List.append_nil]

namespace Place

/-- Where a step down leads, for every scope it starts from: into a function, or into containers
that do not depend on the scope. -/
def StepsAlike (below : Scope → List Place) : Prop :=
  ∀ scope, ∀ child ∈ below scope, child.scope = scope.enter ∨
    ∃ segments, child.scope = scope.push segments ∧
      ∀ other : Scope, ⟨other.push segments, child.node⟩ ∈ below other

section

variable (nodes : List TreeNode)

theorem stepsAlike_enter : StepsAlike fun scope => scope.enter.places nodes :=
  fun _ _ member => Or.inl (mem_places.mp member).1

theorem stepsAlike_push (segments : List String) :
    StepsAlike fun scope => (scope.push segments).places nodes := by
  intro scope child member
  obtain ⟨stands, node⟩ := mem_places.mp member
  exact Or.inr ⟨segments, stands, fun other => mem_places.mpr ⟨rfl, node⟩⟩

theorem stepsAlike_places : StepsAlike fun scope => scope.places nodes := by
  have same : (fun scope : Scope => scope.places nodes) =
      fun scope => (scope.push []).places nodes :=
    funext fun scope => by rw [Scope.push_nil]
  rw [same]
  exact stepsAlike_push nodes []

end

theorem StepsAlike.append {first second : Scope → List Place} (alike : StepsAlike first)
    (secondAlike : StepsAlike second) : StepsAlike fun scope => first scope ++ second scope := by
  intro scope child member
  rcases List.mem_append.mp member with member | member
  · refine (alike scope child member).imp_right ?_
    rintro ⟨segments, stands, others⟩
    exact ⟨segments, stands, fun other => List.mem_append_left _ (others other)⟩
  · refine (secondAlike scope child member).imp_right ?_
    rintro ⟨segments, stands, others⟩
    exact ⟨segments, stands, fun other => List.mem_append_right _ (others other)⟩

theorem stepsAlike_belowExpr (expr : Expr) : StepsAlike fun scope => belowExpr scope expr := by
  cases expr with
  | name | this | text => exact stepsAlike_places []
  | function | arrow => exact stepsAlike_enter _
  | assign => exact stepsAlike_push _ _
  | _ => exact stepsAlike_places _

theorem stepsAlike_belowTarget (target : Pattern) :
    StepsAlike fun scope => belowTarget scope target := by
  cases target with
  | name => exact stepsAlike_places []
  | expr inner =>
    cases inner with
    | member start object key => exact stepsAlike_belowExpr (.member start object key)
    | superMember start key => exact stepsAlike_belowExpr (.superMember start key)
    | paren start inner => exact stepsAlike_belowExpr (.paren start inner)
    | _ => exact stepsAlike_places _
  | _ => exact stepsAlike_places _

theorem stepsAlike_belowStatement (statement : Statement) :
    StepsAlike fun scope => belowStatement scope statement := by
  cases statement with
  | function => exact stepsAlike_enter _
  | «class» => exact stepsAlike_push _ _
  | _ => exact stepsAlike_places _

theorem stepsAlike_below (node : TreeNode) : StepsAlike fun scope => below ⟨scope, node⟩ := by
  cases node with
  | item inner =>
    cases inner with
    | exported => exact stepsAlike_belowStatement _
    | defaultFunction => exact stepsAlike_enter _
    | defaultClass => exact stepsAlike_push _ _
    | _ => exact stepsAlike_places _
  | statement inner => exact stepsAlike_belowStatement inner
  | declarator inner => cases inner with | mk => exact stepsAlike_push _ _
  | entry inner =>
    cases inner with
    | pair => exact stepsAlike_push _ _
    | method => exact (stepsAlike_places _).append (stepsAlike_enter _)
    | accessor => exact stepsAlike_enter _
    | _ => exact stepsAlike_places _
  | member inner =>
    cases inner with
    | method | accessor => exact (stepsAlike_places _).append (stepsAlike_enter _)
    | _ => exact stepsAlike_places _
  | expr inner => exact stepsAlike_belowExpr inner
  | key inner =>
    cases inner with
    | plain => exact stepsAlike_places []
    | computed => exact stepsAlike_places _
  | pattern inner =>
    cases inner with
    | name => exact stepsAlike_places []
    | _ => exact stepsAlike_places _
  | target inner => exact stepsAlike_belowTarget inner
  | part inner =>
    cases inner with
    | function => exact stepsAlike_enter _
    | _ => exact stepsAlike_places _

end Place

/-! ### The function around a place -/

/-- The innermost function around a place is entered at `entry`, and inside it the place is in the
containers `inner`. -/
structure Script.Program.Encloses (program : Program) (entry : Place) (inner : List String)
    (place : Place) : Prop where
  entered : ∃ parent, program.Holds parent ∧ entry ∈ parent.below ∧
    entry.scope = parent.scope.enter
  reaches : entry.Reaches place
  scope : place.scope = entry.scope.push inner

theorem Script.Program.Encloses.holds {program : Program} {entry place : Place}
    {inner : List String} (encloses : program.Encloses entry inner place) :
    program.Holds place := by
  obtain ⟨parent, ⟨item, member, toParent⟩, step, -⟩ := encloses.entered
  exact ⟨item, member, (toParent.tail step).trans encloses.reaches⟩

/-- A place inside a function is reached in the same way wherever that function stands. -/
theorem Script.Program.exists_encloses {program : Program} {place : Place}
    (held : program.Holds place) (inside : 0 < place.scope.depth) :
    ∃ entry inner, program.Encloses entry inner place ∧
      ∀ other, Place.Reaches ⟨other, entry.node⟩ ⟨other.push inner, place.node⟩ := by
  obtain ⟨item, member, reaches⟩ := held
  induction reaches with
  | refl => exact absurd inside (Nat.lt_irrefl 0)
  | @tail parent child toParent step inductionHypothesis =>
    rcases Place.stepsAlike_below parent.node parent.scope child step with
      entered | ⟨segments, pushed, others⟩
    · refine ⟨child, [], ⟨⟨parent, ⟨item, member, toParent⟩, step, entered⟩, .refl,
        (Scope.push_nil _).symm⟩, fun other => ?_⟩
      rw [Scope.push_nil]
      exact .refl
    · rw [pushed] at inside
      obtain ⟨entry, inner, encloses, moved⟩ := inductionHypothesis inside
      refine ⟨entry, inner ++ segments,
        ⟨encloses.entered, encloses.reaches.tail step, ?_⟩, fun other => ?_⟩
      · rw [pushed, encloses.scope, Scope.push_push]
      · have further := others (other.push inner)
        rw [Scope.push_push] at further
        exact (moved other).tail further

/-! ### What is told inside a function -/

/-- Whether the path to a key through the containers of a scope is that of an instance member. -/
def Scope.tellsInstance (scope : Scope) (key : String) : Bool :=
  !scope.path.isEmpty && Namepath.isInstance (Namepath.ofPath (scope.qualify key))

namespace Shape

variable {scope other : Scope} (inside : 0 < scope.depth)

include inside

theorem isTopLevel_of_inside : scope.isTopLevel = false :=
  beq_eq_false_iff_ne.mpr inside.ne'

theorem propertyEvidence_of_inside (key : String) :
    propertyEvidence scope (some key) =
      { name := some key, isInstanceMember := onlyTrue (scope.tellsInstance key) } := by
  have topLevel := isTopLevel_of_inside inside
  simp only [propertyEvidence, Scope.tellsInstance, topLevel]
  by_cases empty : scope.path.isEmpty = true
  · rw [if_pos empty, empty]
    rfl
  · rw [if_neg empty, Bool.eq_false_iff.mpr empty]
    rfl

/-- What is told of anything but a property does not depend on the scope. -/
theorem describe_eq_of_not_property (otherInside : 0 < other.depth) {shape : Shape}
    (notProperty : ∀ key value, shape ≠ .property (some key) value)
    (utilityNamespaces : List String) :
    shape.describe scope utilityNamespaces = shape.describe other utilityNamespaces := by
  have topLevel := isTopLevel_of_inside inside
  have otherTopLevel := isTopLevel_of_inside otherInside
  cases shape with
  | member object name value =>
    have holder : memberEvidence scope object name = memberEvidence other object name := by
      unfold memberEvidence
      simp only [topLevel, otherTopLevel, Bool.false_eq_true, if_false]
    simp only [describe, topLevel, otherTopLevel, holder]
  | binding name value =>
    have holder : bindingEvidence scope name = bindingEvidence other name := by
      unfold bindingEvidence
      simp only [topLevel, otherTopLevel, Bool.false_eq_true, if_false]
    simp only [describe, topLevel, otherTopLevel, holder]
  | property name value =>
    cases name with
    | none => simp only [describe, topLevel, otherTopLevel, propertyEvidence]
    | some key => exact absurd rfl (notProperty key value)
  | classMember name isStatic kind value =>
    cases name with
    | none => rfl
    | some name =>
      have holder : classMemberEvidence scope name isStatic kind =
          classMemberEvidence other name isStatic kind := by
        unfold classMemberEvidence
        simp only [topLevel, otherTopLevel, Bool.false_and, Bool.false_eq_true, if_false]
      simp only [describe, topLevel, otherTopLevel, holder]
  | other => rfl

/-- A property tells its flag whatever its value is. -/
theorem describe_property_eq_iff (otherInside : 0 < other.depth) (key : String) (value : Value)
    (utilityNamespaces : List String) :
    (property (some key) value).describe scope utilityNamespaces =
        (property (some key) value).describe other utilityNamespaces ↔
      scope.tellsInstance key = other.tellsInstance key := by
  have topLevel := isTopLevel_of_inside inside
  have otherTopLevel := isTopLevel_of_inside otherInside
  have flag (holder : Evidence) :=
    (value.sameIdentity_describe false utilityNamespaces holder).isInstanceMember
  simp only [describe, topLevel, otherTopLevel, propertyEvidence_of_inside inside,
    propertyEvidence_of_inside otherInside]
  constructor
  · intro same
    have flags := congrArg (fun told => told.evidence.isInstanceMember) same
    simp only [flag] at flags
    rw [← getD_onlyTrue (scope.tellsInstance key), flags, getD_onlyTrue]
  · intro agree
    rw [agree]

/-- Inside functions the scope can be told from the flag of a property only. -/
theorem describe_eq_describe_iff (otherInside : 0 < other.depth) (shape : Shape)
    (utilityNamespaces : List String) :
    shape.describe scope utilityNamespaces = shape.describe other utilityNamespaces ↔
      ∀ key value, shape = .property (some key) value →
        scope.tellsInstance key = other.tellsInstance key := by
  by_cases isProperty : ∃ key value, shape = .property (some key) value
  · obtain ⟨key, value, rfl⟩ := isProperty
    rw [describe_property_eq_iff inside otherInside]
    refine ⟨fun agree otherKey otherValue same => ?_, fun agree => agree key value rfl⟩
    obtain ⟨named, -⟩ := Shape.property.inj same
    rwa [← Option.some.inj named]
  · have notProperty : ∀ key value, shape ≠ .property (some key) value :=
      fun key value same => isProperty ⟨key, value, same⟩
    exact iff_of_true (describe_eq_of_not_property inside otherInside notProperty _)
      fun key value same => absurd same (notProperty key value)

end Shape

/-! ### Paths to instances -/

/-- A key that is one segment of a path, with nothing of a separator in it. -/
structure Namepath.IsMemberName (key : String) : Prop where
  nonempty : key ≠ ""
  dot : '.' ∉ key.toList
  hash : '#' ∉ key.toList
  plain : key ≠ prototypeSegment

/-- A path goes through a prototype, behind an owner for it, or through a separator. -/
def Scope.LeadsToInstances (scope : Scope) : Prop :=
  Namepath.prototypeSegment ∈ (Namepath.segments scope.path).tail ∨
    ∃ segment ∈ Namepath.segments scope.path, '#' ∈ segment.toList

/-- An ordinary key is that of an instance member if the path to it leads to instances. -/
theorem Scope.tellsInstance_iff {key : String} (ordinary : Namepath.IsMemberName key)
    (scope : Scope) : scope.tellsInstance key = true ↔ scope.LeadsToInstances := by
  by_cases empty : scope.path = ""
  · have nowhere : ¬scope.LeadsToInstances := by
      rw [LeadsToInstances, empty]
      decide
    refine iff_of_false (fun tells => ?_) nowhere
    rw [tellsInstance, empty] at tells
    cases tells
  · have placed : ¬scope.path.isEmpty = true := by simpa using empty
    obtain ⟨first, rest, cut⟩ := List.exists_cons_of_ne_nil (Namepath.segments_ne_nil scope.path)
    have path : Namepath.ofPath (scope.qualify key) =
        Namepath.ofSegments (Namepath.segments scope.path ++ [key]) := by
      rw [qualify_of_path placed, Namepath.ofPath, Namepath.segments_append,
        Namepath.segments_of_free ordinary.dot]
    have last : (Namepath.ofSegments (Namepath.segments scope.path ++ [key])).toList.getLast? ≠
        some '#' := by
      obtain ⟨front, ends⟩ := Namepath.suffix_ofSegments_concat ordinary.plain
        (Namepath.segments scope.path)
      have some : key.toList ≠ [] := by simpa using ordinary.nonempty
      rw [← ends, List.getLast?_append_of_ne_nil _ some]
      exact fun last => ordinary.hash (List.mem_of_getLast? last)
    rw [tellsInstance, Bool.eq_false_iff.mpr placed, Bool.not_false, Bool.true_and, path,
      Namepath.isInstance, Namepath.hasInstanceTail_iff, and_iff_left last,
      Namepath.hash_mem_ofSegments, LeadsToInstances, cut]
    simp [ordinary.hash, ordinary.plain.symm]

/-! ### A function in another scope -/

/-- What becomes of a place in a function if the function stands in another scope. -/
structure Place.Moved (utilityNamespaces : List String) (entry : Place) (inner : List String)
    (place : Place) (other : Scope) : Prop where
  /-- The place is in the same containers of the function. -/
  reaches : Reaches ⟨other, entry.node⟩ ⟨other.push inner, place.node⟩
  /-- It tells the same, unless it is a property whose path tells another flag. -/
  same_iff : place.node.shape.describe place.scope utilityNamespaces =
      place.node.shape.describe (other.push inner) utilityNamespaces ↔
    ∀ key value, place.node.shape = .property (some key) value →
      place.scope.tellsInstance key = (other.push inner).tellsInstance key
  /-- A property with an ordinary key tells the same if both paths lead to instances, or none. -/
  same_iff_of_ordinary : ∀ key value, place.node.shape = .property (some key) value →
    Namepath.IsMemberName key →
      (place.node.shape.describe place.scope utilityNamespaces =
          place.node.shape.describe (other.push inner) utilityNamespaces ↔
        (place.scope.LeadsToInstances ↔ (other.push inner).LeadsToInstances))

/-- A function hides the scope around it, but for the flags of properties: what is told of any other
place inside it does not depend on the containers outside the function. -/
theorem function_hides_containers_iff {program : Program} {place : Place}
    (held : program.Holds place) (inside : 0 < place.scope.depth)
    (utilityNamespaces : List String) :
    ∃ entry inner, program.Encloses entry inner place ∧
      ∀ other : Scope, 0 < other.depth →
        Place.Moved utilityNamespaces entry inner place other := by
  obtain ⟨entry, inner, encloses, moved⟩ := Program.exists_encloses held inside
  refine ⟨entry, inner, encloses, fun other otherInside => ?_⟩
  have pushedInside : 0 < (other.push inner).depth := otherInside
  refine ⟨moved other, Shape.describe_eq_describe_iff inside pushedInside _ _,
    fun key value property ordinary => ?_⟩
  rw [property, Shape.describe_property_eq_iff inside pushedInside, Bool.eq_iff_iff,
    Scope.tellsInstance_iff ordinary, Scope.tellsInstance_iff ordinary]

/-- A method in a prototype that returns an object. -/
def returnedObjectSource : String :=
  "A.prototype.m=function()\x7breturn \x7b\n/***/\nx\x7d\x7d"

/-- The only property of the object. -/
@[match_pattern]
def returnedProperty : Entry :=
  .shorthand ⟨40, 3⟩ "x" none

/-- What the method does. -/
@[match_pattern]
def returnedObject : Statement :=
  .compound ⟨25, 1⟩ [.expr (.object ⟨32, 1⟩ [returnedProperty])]

/-- The statement that the source is made of. -/
@[match_pattern]
def returningMethod : Statement :=
  .expression ⟨0, 1⟩ (.assign ⟨0, 1⟩
    (.expr (.member ⟨0, 1⟩ (.member ⟨0, 1⟩ (.name ⟨0, 1⟩ "A") (.plain "prototype")) (.plain "m")))
    (.function ⟨14, 1⟩ [] [returnedObject]))

/-- The scope inside the method. -/
def returningScope : Scope :=
  ⟨["A", "prototype", "m"], 1⟩

/-- Whether a program has that statement alone. -/
def isReturningMethod : List Item → Bool
  | [.statement returningMethod] => true
  | _ => false

theorem exists_returningMethod :
    ∃ parsed, parse? returnedObjectSource false = some parsed ∧
      parsed.program.items = [.statement returningMethod] := by
  have computed : (parse? returnedObjectSource false).map (fun parsed =>
      isReturningMethod parsed.program.items) = some true := by decide +kernel
  obtain ⟨parsed, read, matched⟩ := Option.map_eq_some_iff.mp computed
  refine ⟨parsed, read, ?_⟩
  unfold isReturningMethod at matched
  split at matched
  · assumption
  · cases matched

theorem Place.reaches_returnedProperty (scope : Scope) :
    Reaches ⟨scope, .statement returnedObject⟩ ⟨scope, .entry returnedProperty⟩ := by
  have toPart : (⟨scope, .part (.expr (.object ⟨32, 1⟩ [returnedProperty]))⟩ : Place) ∈
      below ⟨scope, .statement returnedObject⟩ := List.mem_singleton_self _
  have toObject : (⟨scope, .expr (.object ⟨32, 1⟩ [returnedProperty])⟩ : Place) ∈
      below ⟨scope, .part (.expr (.object ⟨32, 1⟩ [returnedProperty]))⟩ := List.mem_singleton_self _
  have toEntry : (⟨scope, .entry returnedProperty⟩ : Place) ∈
      below ⟨scope, .expr (.object ⟨32, 1⟩ [returnedProperty])⟩ := List.mem_singleton_self _
  exact .of_mem toPart (.of_mem toObject (.of_mem toEntry .refl))

theorem exists_encloses_returnedProperty :
    ∃ parsed, parse? returnedObjectSource false = some parsed ∧
      parsed.program.Encloses ⟨returningScope, .statement returnedObject⟩ []
        ⟨returningScope, .entry returnedProperty⟩ := by
  obtain ⟨parsed, read, items⟩ := exists_returningMethod
  have toStatement : (⟨.outermost, .statement returningMethod⟩ : Place) ∈
      Place.below ⟨.outermost, .item (.statement returningMethod)⟩ := List.mem_singleton_self _
  have toMethod := Place.reaches_assigned
    (.member ⟨0, 1⟩ "m" (.member ⟨0, 1⟩ "prototype" (.name ⟨0, 1⟩ "A"))) (by decide) .outermost
    ⟨0, 1⟩ ⟨0, 1⟩ (.function ⟨14, 1⟩ [] [returnedObject])
  have held : parsed.program.Holds ⟨Scope.outermost.push ["A", "prototype", "m"],
      .expr (.function ⟨14, 1⟩ [] [returnedObject])⟩ :=
    ⟨.statement returningMethod, items ▸ List.mem_singleton_self _, .of_mem toStatement toMethod⟩
  exact ⟨parsed, read, ⟨_, held, List.mem_singleton_self _, rfl⟩,
    Place.reaches_returnedProperty returningScope, rfl⟩

/-- Below another prototype, the property of the returned object is an instance member too. -/
theorem function_hides_containers_iff_returnedProperty :
    ∃ parsed entry inner, parse? returnedObjectSource false = some parsed ∧
      parsed.program.Holds ⟨returningScope, .entry returnedProperty⟩ ∧
      parsed.program.Encloses entry inner ⟨returningScope, .entry returnedProperty⟩ ∧
      ((TreeNode.entry returnedProperty).shape.describe
        (({ containers := ["B", "prototype"], depth := 1 } : Scope).push inner)
          []).evidence.isInstanceMember = some true := by
  obtain ⟨parsed, read, known⟩ := exists_encloses_returnedProperty
  have inside : 0 < returningScope.depth := Nat.one_pos
  obtain ⟨entry, inner, encloses, moved⟩ := function_hides_containers_iff known.holds inside []
  refine ⟨parsed, entry, inner, read, known.holds, encloses, ?_⟩
  have ordinary : Namepath.IsMemberName "x" := ⟨by decide, by decide, by decide, by decide⟩
  have toInstances : returningScope.LeadsToInstances := Or.inl (by decide)
  have otherToInstances : (({ containers := ["B", "prototype"], depth := 1 } : Scope).push
      inner).LeadsToInstances := by
    have suffix : inner <:+ ["A", "prototype", "m"] :=
      ⟨entry.scope.containers, (congrArg Scope.containers encloses.scope).symm⟩
    simp only [List.suffix_cons_iff, List.suffix_nil] at suffix
    rcases suffix with rfl | rfl | rfl | rfl <;> exact Or.inl (by decide)
  have same := ((moved ⟨["B", "prototype"], 1⟩ Nat.one_pos).same_iff_of_ordinary "x" .plain rfl
    ordinary).mpr (iff_of_true toInstances otherToInstances)
  rw [← same]
  decide

/-- The property of the returned object takes its flag from the prototype that the method is in. -/
theorem function_shows_containers_returnedProperty :
    ∃ parsed entry inner place, parse? returnedObjectSource false = some parsed ∧
      parsed.program.Encloses entry inner place ∧
      ∃ other : Scope, other.depth = place.scope.depth ∧
        Place.Reaches ⟨other, entry.node⟩ ⟨other.push inner, place.node⟩ ∧
        (place.node.shape.describe place.scope []).evidence.isInstanceMember = some true ∧
        (place.node.shape.describe (other.push inner) []).evidence.isInstanceMember = none := by
  obtain ⟨parsed, read, encloses⟩ := exists_encloses_returnedProperty
  exact ⟨parsed, _, _, _, read, encloses, ⟨[], 1⟩, rfl, Place.reaches_returnedProperty _,
    by decide, by decide⟩

end DocEntities
