/-
This file says when the namepath that the code gives to an entity is the one the entity is
stored under. The code is read twice. Its path gives a namepath at once, from which the records
for the members of a class are named. The entity is stored under the namepath of its parts: the
container, the name, and whether it is an instance member.

A name always gives the same namepath twice. For a member, a property or a member of a class
the two agree exactly if the container is not empty and the instance flag tells how the path
reaches the name. The flag is read off the whole path, so in `a.prototype.b.c` it tells of the
prototype in front of `b`, and the entity is stored as `a#b#c` though the code says `a#b.c`.
-/

import DocEntities.Proofs.Namepath
import DocEntities.Proofs.Traversal

namespace DocEntities

open Script

theorem Scope.qualify_append (scope : Scope) (path last : String) :
    scope.qualify (path ++ "." ++ last) = scope.qualify path ++ "." ++ last := by
  unfold qualify
  split
  · rfl
  · simp only [String.append_assoc]

theorem Scope.qualify_of_path {scope : Scope} (placed : ¬scope.path.isEmpty) (inner : String) :
    scope.qualify inner = scope.path ++ "." ++ inner := by
  refine if_neg fun none => placed ?_
  rw [path, List.isEmpty_iff.mp none]
  rfl

theorem getD_onlyTrue (holds : Bool) : (onlyTrue holds).getD false = holds := by
  cases holds <;> rfl

/-! ### What a value adds -/

theorem Namepath.ofParts_congr_kind {kind other : Option Kind} (plain : kind ≠ some .event)
    (otherPlain : other ≠ some .event) (container : Option String) (name : String)
    (instanceMember : Bool) :
    ofParts container name instanceMember kind = ofParts container name instanceMember other := by
  unfold ofParts
  rw [if_neg plain, if_neg otherPlain]

/-- Evidence that says of the identity of an entity what other evidence says. -/
structure Evidence.SameIdentity (found holder : Evidence) : Prop where
  codeId : found.codeId = holder.codeId
  name : found.name = holder.name
  container : found.container = holder.container
  isInstanceMember : found.isInstanceMember = holder.isInstanceMember
  event : found.kind = some .event → holder.kind = some .event

theorem Evidence.SameIdentity.key?_eq {found holder : Evidence}
    (same : found.SameIdentity holder) (plain : holder.kind ≠ some .event) :
    found.key? = holder.key? := by
  unfold key?
  rw [same.name, same.container, same.isInstanceMember]
  refine Option.map_congr fun name _ => ?_
  exact Namepath.ofParts_congr_kind (fun event => plain (same.event event)) plain _ _ _

/-- A value tells the kind of its holder, but never that it is an event, and nothing of its
identity. -/
theorem Value.sameIdentity_describe (value : Value) (topLevel : Bool)
    (utilityNamespaces : List String) (holder : Evidence) :
    (value.describe topLevel utilityNamespaces holder).evidence.SameIdentity holder := by
  cases value with
  | function params => exact ⟨rfl, rfl, rfl, rfl, nofun⟩
  | «class» base => exact ⟨rfl, rfl, rfl, rfl, nofun⟩
  | extension base members =>
    simp only [describe]
    split
    · exact ⟨rfl, rfl, rfl, rfl, id⟩
    · exact ⟨rfl, rfl, rfl, rfl, nofun⟩
  | made constructor =>
    simp only [describe]
    split
    · exact ⟨rfl, rfl, rfl, rfl, nofun⟩
    · split
      · exact ⟨rfl, rfl, rfl, rfl, nofun⟩
      · exact ⟨rfl, rfl, rfl, rfl, id⟩
  | plain => exact ⟨rfl, rfl, rfl, rfl, id⟩

/-! ### Evidence on the holder of a value -/

namespace Shape

variable {scope : Scope} {id : String}

/-- How a shape has to be reached for its code to give the namepath of its parts. A name is
reached as it is. Any other shape needs a container that is not empty, and a flag that tells
how the path from the container reaches the name. -/
def ReachedAsTold (scope : Scope) : Shape → Prop
  | .binding _ _ => True
  | .member (some path) (some last) _ =>
    Namepath.ofContainer (scope.qualify path) ≠ "" ∧
      Namepath.Tells (scope.qualify path) last
        (Namepath.isInstance (Namepath.ofPath (path ++ "." ++ last)))
  | .property (some key) _ =>
    Namepath.ofContainer scope.path ≠ "" ∧
      Namepath.Tells scope.path key (Namepath.isInstance (Namepath.ofPath (scope.qualify key)))
  | .classMember (some name) true _ _ =>
    Namepath.ofContainer scope.path ≠ "" ∧ Namepath.Tells scope.path name false
  | .classMember (some name) false _ _ =>
    Namepath.ofContainer scope.path ≠ "" ∧
      Namepath.prototypeSegment ∉ (Namepath.segments name).tail ∧
        Namepath.dropPrototype (Namepath.segments scope.path) = Namepath.segments scope.path
  | _ => False

theorem key?_bindingEvidence {name : Option String} (value : Value)
    (told : (bindingEvidence scope name).codeId = some id) :
    (bindingEvidence scope name).key? = some id ↔ (binding name value).ReachedAsTold scope := by
  simp only [bindingEvidence, Option.ite_none_right_eq_some] at told
  obtain ⟨-, rfl⟩ := told
  exact iff_of_true rfl trivial

theorem key?_memberEvidence {object name : Option String} (value : Value)
    (told : (memberEvidence scope object name).codeId = some id) :
    (memberEvidence scope object name).key? = some id ↔
      (member object name value).ReachedAsTold scope := by
  unfold memberEvidence at told ⊢
  split at told
  · rename_i path last
    simp only [Option.ite_none_right_eq_some, Option.some.injEq] at told
    obtain ⟨topLevel, rfl⟩ := told
    simp only [Evidence.key?, Option.map_some, Option.some.injEq, if_pos topLevel, getD_onlyTrue,
      Scope.qualify_append]
    rw [eq_comm, Namepath.ofPath_eq_ofParts_iff (by simp)]
    rfl
  · cases told

theorem key?_propertyEvidence {name : Option String} (value : Value)
    (told : (propertyEvidence scope name).codeId = some id) :
    (propertyEvidence scope name).key? = some id ↔ (property name value).ReachedAsTold scope := by
  unfold propertyEvidence at told ⊢
  split at told
  · cases told
  · rename_i key
    simp only at told ⊢
    split at told
    · cases told
    · rename_i placed
      simp only [Option.ite_none_right_eq_some, Option.some.injEq] at told
      obtain ⟨topLevel, rfl⟩ := told
      simp only [if_neg placed, Evidence.key?, Option.map_some, Option.some.injEq,
        if_pos topLevel, getD_onlyTrue, ReachedAsTold, Scope.qualify_of_path placed]
      rw [eq_comm, Namepath.ofPath_eq_ofParts_iff (by simp)]

/-- A member of the class itself is reached by its name, one of the instances through the
prototype. -/
theorem key?_classMemberEvidence {name : String} {isStatic : Bool} {kind : Option Kind}
    (plain : kind ≠ some .event) (value : Value)
    (told : (classMemberEvidence scope name isStatic kind).codeId = some id) :
    (classMemberEvidence scope name isStatic kind).key? = some id ↔
      (classMember (some name) isStatic kind value).ReachedAsTold scope := by
  simp only [classMemberEvidence, Option.ite_none_right_eq_some, Option.some.injEq] at told ⊢
  obtain ⟨placed, rfl⟩ := told
  have named : ¬scope.path.isEmpty := by simpa using (Bool.and_eq_true_iff.mp placed).2
  simp only [Evidence.key?, Option.map_some, Option.some.injEq, if_pos placed, getD_onlyTrue,
    Scope.qualify_of_path named]
  rw [eq_comm]
  cases isStatic with
  | true => exact Namepath.ofPath_eq_ofParts_iff plain _ _ _
  | false => exact Namepath.ofPath_prototype_eq_ofParts_iff plain _ _

end Shape

/-! ### Shapes of code -/

/-- The kind that a member of a class has by its form, if a shape is one. -/
def Shape.formKind? : Shape → Option Kind
  | .classMember _ _ kind _ => kind
  | _ => none

theorem Shape.formKind?_ofStatement (statement : Statement) :
    (ofStatement statement).formKind? = none := by
  fun_cases ofStatement statement with
  | case1 start expr => fun_cases ofExpr expr <;> rfl
  | case2 start declarator rest => fun_cases ofDeclarator declarator <;> rfl
  | _ => rfl

/-- No code has the form of an event. -/
theorem TreeNode.formKind?_shape_ne_event (node : TreeNode) :
    node.shape.formKind? ≠ some .event := by
  cases node with
  | item inner =>
    cases inner with
    | statement inner => simp [shape, Shape.ofItem, Shape.formKind?_ofStatement]
    | exported start declaration => simp [shape, Shape.ofItem, Shape.formKind?_ofStatement]
    | defaultFunction start name params body => cases name <;> rintro ⟨⟩
    | defaultClass start name members base => cases name <;> rintro ⟨⟩
    | other start parts => rintro ⟨⟩
  | statement inner => simp [shape, Shape.formKind?_ofStatement]
  | declarator inner =>
    simp only [shape]
    fun_cases Shape.ofDeclarator inner <;> rintro ⟨⟩
  | entry inner => cases inner <;> rintro ⟨⟩
  | member inner => cases inner <;> rintro ⟨⟩
  | expr inner =>
    simp only [shape]
    fun_cases Shape.ofExpr inner <;> rintro ⟨⟩
  | _ => rintro ⟨⟩

/-- The namepath that the code gives to what it documents is the one that this is stored under
exactly if the shape is reached as its instance flag tells. -/
theorem key?_describe_eq_codeId_iff (node : TreeNode) (scope : Scope)
    (utilityNamespaces : List String) {id : String}
    (told : (node.shape.describe scope utilityNamespaces).evidence.codeId = some id) :
    (node.shape.describe scope utilityNamespaces).evidence.key? = some id ↔
      node.shape.ReachedAsTold scope := by
  have notEvent := node.formKind?_shape_ne_event
  generalize node.shape = shape at told notEvent ⊢
  have same := fun value : Value =>
    value.sameIdentity_describe scope.isTopLevel utilityNamespaces
  -- The value leaves the identity to its holder, whose evidence depends on the shape alone.
  cases shape with
  | binding name value =>
    have holder := same value (Shape.bindingEvidence scope name)
    simp only [Shape.describe, holder.codeId] at told ⊢
    rw [holder.key?_eq nofun]
    exact Shape.key?_bindingEvidence value told
  | member object name value =>
    have holder := same value (Shape.memberEvidence scope object name)
    simp only [Shape.describe, holder.codeId] at told ⊢
    rw [holder.key?_eq (by unfold Shape.memberEvidence; split <;> exact nofun)]
    exact Shape.key?_memberEvidence value told
  | property name value =>
    have holder := same value (Shape.propertyEvidence scope name)
    simp only [Shape.describe, holder.codeId] at told ⊢
    have plain : (Shape.propertyEvidence scope name).kind ≠ some .event := by
      fun_cases Shape.propertyEvidence scope name <;> exact nofun
    rw [holder.key?_eq plain]
    exact Shape.key?_propertyEvidence value told
  | classMember name isStatic kind value =>
    cases name with
    | none => cases told
    | some name =>
      have holder := same value (Shape.classMemberEvidence scope name isStatic kind)
      simp only [Shape.describe, holder.codeId] at told ⊢
      rw [holder.key?_eq notEvent]
      exact Shape.key?_classMemberEvidence notEvent value told
  | other => cases told

/-- The chain of members `a.prototype.b`, or `a.prototype.b.c` if a further key is given. -/
def prototypeChain (further : Option String) : Expr :=
  let member := Expr.member ⟨0, 1⟩ (.member ⟨0, 1⟩ (.name ⟨0, 1⟩ "a") (.plain "prototype"))
    (.plain "b")
  match further with
  | none => member
  | some key => .member ⟨0, 1⟩ member (.plain key)

/-- A member of a prototype is stored under the namepath that its code gives. A member of that
member is not reached as told. -/
theorem key?_describe_prototypeChain :
    ((TreeNode.expr (prototypeChain none)).shape.describe .outermost []).evidence.codeId =
        some "a#b" ∧
      ((TreeNode.expr (prototypeChain none)).shape.describe .outermost []).evidence.key? =
        some "a#b" ∧
      ¬(TreeNode.expr (prototypeChain "c")).shape.ReachedAsTold .outermost := by
  have told : ((TreeNode.expr (prototypeChain none)).shape.describe .outermost []).evidence.codeId =
      some "a#b" := by decide
  have furtherTold :
      ((TreeNode.expr (prototypeChain "c")).shape.describe .outermost []).evidence.codeId =
        some "a#b.c" := by decide
  have reached : (TreeNode.expr (prototypeChain none)).shape.ReachedAsTold .outermost := by
    refine ⟨by decide, ?_⟩
    rw [Namepath.Tells, if_pos (by decide)]
    decide
  refine ⟨told, (key?_describe_eq_codeId_iff _ .outermost [] told).mpr reached, fun further => ?_⟩
  have stored := (key?_describe_eq_codeId_iff _ .outermost [] furtherTold).mpr further
  exact absurd stored (by decide)

/-- The flag of `a.prototype.b.c` is set by the prototype in front of `b`, so that the entity is
stored as if `c` were reached through a prototype. -/
theorem key?_ne_codeId_prototypeChain :
    (Scope.outermost.depth = 0) ∧
      ((TreeNode.expr (prototypeChain "c")).shape.describe .outermost []).evidence.codeId =
        some "a#b.c" ∧
      ((TreeNode.expr (prototypeChain "c")).shape.describe .outermost []).evidence.key? =
        some "a#b#c" := by
  decide

end DocEntities
