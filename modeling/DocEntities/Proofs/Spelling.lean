/-
This file compares the ways to write one member of a path. `a.b.c = v` assigns it at once;
`a.b = { c: v }`, `a = { b: { c: v } }` and `var a = { b: { c: v } }` put it into object literals
inside each other. In the first the path is read off the chain that is assigned to, in the others
it is gathered on the way to the property, by the assignment, the variable and the literals that
are gone into. All of them tell the same.
-/

import DocEntities.Proofs.Run

namespace DocEntities

open Script

/-! ### Identifiers -/

/-- A word that code can use as a name. -/
def isIdentifier (word : String) : Bool :=
  match word.toList with
  | [] => false
  | c :: rest => Text.isIdentifierStart c && rest.all Text.isIdentifierPart

theorem not_mem_of_isIdentifier {word : String} {c : Char} (identifier : isIdentifier word = true)
    (notStart : Text.isIdentifierStart c = false) (notPart : Text.isIdentifierPart c = false) :
    c ∉ word.toList := by
  unfold isIdentifier at identifier
  split at identifier
  · cases identifier
  · rename_i first rest equal
    rw [Bool.and_eq_true, List.all_eq_true] at identifier
    rw [equal]
    intro member
    rcases List.mem_cons.mp member with rfl | later
    · exact Bool.false_ne_true (notStart.symm.trans identifier.1)
    · exact Bool.false_ne_true (notPart.symm.trans (identifier.2 c later))

theorem dot_not_mem_of_isIdentifier {word : String} (identifier : isIdentifier word = true) :
    '.' ∉ word.toList :=
  not_mem_of_isIdentifier identifier (by decide) (by decide)

theorem hash_not_mem_of_isIdentifier {word : String} (identifier : isIdentifier word = true) :
    '#' ∉ word.toList :=
  not_mem_of_isIdentifier identifier (by decide) (by decide)

theorem ne_empty_of_isIdentifier {word : String} (identifier : isIdentifier word = true) :
    word ≠ "" := by
  rintro rfl
  cases identifier

/-! ### Paths of identifiers -/

namespace Namepath

theorem segments_of_isIdentifier {word : String} (identifier : isIdentifier word = true) :
    segments word = [word] :=
  segments_of_free (dot_not_mem_of_isIdentifier identifier)

theorem segments_join {path : List String} (nonempty : path ≠ [])
    (identifiers : ∀ segment ∈ path, isIdentifier segment = true) :
    segments (Text.join "." path) = path :=
  segments_join_of_free nonempty fun segment member =>
    dot_not_mem_of_isIdentifier (identifiers segment member)

theorem join_ne_empty {path : List String} (nonempty : path ≠ [])
    (identifiers : ∀ segment ∈ path, isIdentifier segment = true) :
    Text.join "." path ≠ "" := by
  obtain ⟨segment, rest, rfl⟩ := List.exists_cons_of_ne_nil nonempty
  rw [join_cons]
  intro empty
  exact ne_empty_of_isIdentifier (identifiers segment List.mem_cons_self)
    (String.append_eq_empty_iff.mp empty).1

end Namepath

theorem Outline.pathSegments_join {path : List String} (nonempty : path ≠ [])
    (identifiers : ∀ segment ∈ path, isIdentifier segment = true) :
    pathSegments (some (Text.join "." path)) = path := by
  rw [pathSegments, Namepath.segments_join nonempty identifiers, List.filter_eq_self]
  intro segment member
  simpa using ne_empty_of_isIdentifier (identifiers segment member)

/-! ### Chains and targets -/

/-- A chain of members with these names. -/
inductive Script.Expr.IsChain : List String → Expr → Prop
  | name (start : Position) (word : String) : IsChain [word] (.name start word)
  | member {path : List String} {object : Expr} (start : Position) (word : String)
    (inner : IsChain path object) : IsChain (path ++ [word]) (.member start object (.plain word))

/-- What is assigned to, if a path of names is. -/
inductive Script.Pattern.IsPath : List String → Pattern → Prop
  | name (word : String) : IsPath [word] (.name word)
  | member {path : List String} {object : Expr} (start : Position) (word : String)
    (inner : object.IsChain path) :
    IsPath (path ++ [word]) (.expr (.member start object (.plain word)))

theorem Script.Expr.IsChain.ne_nil {path : List String} {expr : Expr} (chain : expr.IsChain path) :
    path ≠ [] := by
  cases chain <;> simp

theorem Script.Expr.IsChain.path? {path : List String} {expr : Expr} (chain : expr.IsChain path) :
    expr.path? = some (Text.join "." path) := by
  induction chain with
  | name start word => rfl
  | member start word inner inductionHypothesis =>
    rw [Expr.path?, inductionHypothesis, Namepath.join_concat inner.ne_nil]
    rfl

theorem Script.Pattern.IsPath.ne_nil {path : List String} {target : Pattern}
    (isPath : target.IsPath path) : path ≠ [] := by
  cases isPath <;> simp

theorem Script.Pattern.IsPath.targetPath? {path : List String} {target : Pattern}
    (isPath : target.IsPath path) : target.targetPath? = some (Text.join "." path) := by
  cases isPath with
  | name word => rfl
  | member start word inner => exact (inner.member start word).path?

/-! ### The way into a value -/

theorem Scope.push_push (scope : Scope) (outer inner : List String) :
    (scope.push outer).push inner = scope.push (outer ++ inner) := by
  simp only [push, List.append_assoc]

/-- An entry of an object literal, found behind a path of keys of literals inside each other. -/
inductive Script.Expr.Nests (entry : Entry) : List String → Expr → Prop
  | here {start : Position} {entries : List Entry} (member : entry ∈ entries) :
    Nests entry [] (.object start entries)
  | inside {start keyStart : Position} {entries : List Entry} {segment : String}
    {path : List String} {inner : Expr}
    (member : .pair keyStart (.plain segment) inner ∈ entries) (nested : Nests entry path inner) :
    Nests entry (segment :: path) (.object start entries)

namespace Place

theorem Reaches.of_mem {place child other : Place} (member : child ∈ place.below)
    (reaches : child.Reaches other) : place.Reaches other :=
  Relation.ReflTransGen.head member reaches

/-- On the way to an entry every key of a literal around it is gone into. -/
theorem reaches_entry {entry : Entry} {path : List String} {literal : Expr}
    (nests : literal.Nests entry path) (scope : Scope) :
    Reaches ⟨scope, .expr literal⟩ ⟨scope.push path, .entry entry⟩ := by
  induction nests generalizing scope with
  | here member =>
    have below : (⟨scope.push [], .entry entry⟩ : Place) ∈ scope.places (List.map .entry _) :=
      mem_places.mpr ⟨by simp [Scope.push], List.mem_map_of_mem member⟩
    exact .of_mem below .refl
  | @inside start keyStart entries segment path inner member nested inductionHypothesis =>
    have container : Outline.pairContainer (.plain segment) inner = some segment := by
      cases nested <;> rfl
    have toPair : (⟨scope, .entry (.pair keyStart (.plain segment) inner)⟩ : Place) ∈
        below ⟨scope, .expr (.object start entries)⟩ :=
      mem_places.mpr ⟨rfl, List.mem_map_of_mem member⟩
    have toValue : (⟨scope.push [segment], .expr inner⟩ : Place) ∈
        below ⟨scope, .entry (.pair keyStart (.plain segment) inner)⟩ := by
      simp [below, belowEntry, container, Scope.inside, mem_places]
    have further := inductionHypothesis (scope.push [segment])
    rw [Scope.push_push] at further
    exact .of_mem toPair (.of_mem toValue further)

/-- On the way to what is assigned the path that it is assigned to is gone into. -/
theorem reaches_assigned {path : List String} {target : Pattern} (isPath : target.IsPath path)
    (identifiers : ∀ segment ∈ path, isIdentifier segment = true) (scope : Scope)
    (start exprStart : Position) (value : Expr) :
    Reaches ⟨scope, .statement (.expression start (.assign exprStart target value))⟩
      ⟨scope.push path, .expr value⟩ := by
  have toExpr : (⟨scope, .expr (.assign exprStart target value)⟩ : Place) ∈
      below ⟨scope, .statement (.expression start (.assign exprStart target value))⟩ :=
    List.mem_singleton_self _
  have toValue : (⟨scope.push path, .expr value⟩ : Place) ∈
      below ⟨scope, .expr (.assign exprStart target value)⟩ := by
    simp [below, belowExpr, isPath.targetPath?, mem_places,
      Outline.pathSegments_join isPath.ne_nil identifiers]
  exact .of_mem toExpr (.of_mem toValue .refl)

/-- On the way to an object or a class that a variable holds the variable is gone into. -/
theorem reaches_declared {word : String} {value : Expr} {declarators : List Declarator}
    {valueStart : Position} (member : .mk valueStart (.name word) (some value) ∈ declarators)
    (container : Outline.declaratorContainer (.name word) (some value) = some word)
    (scope : Scope) (start : Position) :
    Reaches ⟨scope, .statement (.declaration start declarators)⟩
      ⟨scope.push [word], .expr value⟩ := by
  have toDeclarator : (⟨scope, .declarator (.mk valueStart (.name word) (some value))⟩ : Place) ∈
      below ⟨scope, .statement (.declaration start declarators)⟩ :=
    mem_places.mpr ⟨rfl, List.mem_map_of_mem member⟩
  have toValue : (⟨scope.push [word], .expr value⟩ : Place) ∈
      below ⟨scope, .declarator (.mk valueStart (.name word) (some value))⟩ := by
    simp [below, belowDeclarator, container, Scope.inside, mem_places]
  exact .of_mem toDeclarator (.of_mem toValue .refl)

end Place

/-! ### Members of a path -/

/-- The statements that give a value to the member `key` of a path, each with the node that a
comment on the member documents. -/
inductive MemberSpelling (path : List String) (key : String) (value : Expr) :
    Statement → TreeNode → Prop
  /-- `a.b.key = value` -/
  | assigned {target : Pattern} (start exprStart : Position)
    (isPath : target.IsPath (path ++ [key])) :
    MemberSpelling path key value (.expression start (.assign exprStart target value))
      (.statement (.expression start (.assign exprStart target value)))
  /-- `a = { b: { key: value } }`, for any part of the path in front of the literal -/
  | nested {outer inner : List String} {target : Pattern} {literal : Expr}
    (start exprStart keyStart : Position) (split : path = outer ++ inner)
    (isPath : target.IsPath outer)
    (nests : literal.Nests (.pair keyStart (.plain key) value) inner) :
    MemberSpelling path key value (.expression start (.assign exprStart target literal))
      (.entry (.pair keyStart (.plain key) value))
  /-- `var a = { b: { key: value } }` -/
  | declared {word : String} {inner : List String} {literal : Expr}
    {declarators : List Declarator} (start literalStart keyStart : Position)
    (split : path = word :: inner)
    (member : .mk literalStart (.name word) (some literal) ∈ declarators)
    (nests : literal.Nests (.pair keyStart (.plain key) value) inner) :
    MemberSpelling path key value (.declaration start declarators)
      (.entry (.pair keyStart (.plain key) value))

/-- A property inside containers tells what the member of their path tells. -/
theorem Shape.propertyEvidence_eq_memberEvidence {path : List String} (nonempty : path ≠ [])
    (identifiers : ∀ segment ∈ path, isIdentifier segment = true) (key : String) :
    propertyEvidence (Scope.outermost.push path) key =
      memberEvidence .outermost (Text.join "." path) key := by
  have containers : (Scope.outermost.push path).path = Text.join "." path := rfl
  have placed : ¬(Scope.outermost.push path).path.isEmpty = true := by
    simpa [containers] using Namepath.join_ne_empty nonempty identifiers
  unfold propertyEvidence
  simp only [if_neg placed, Scope.qualify_of_path placed]
  rfl

/-- The member of a path is reached outside of functions, and told of as if it were assigned at
once, however it is written. -/
theorem MemberSpelling.exists_place {path : List String} {key : String} {value : Expr}
    {statement : Statement} {node : TreeNode}
    (spelled : MemberSpelling path key value statement node) (nonempty : path ≠ [])
    (identifiers : ∀ segment ∈ path, isIdentifier segment = true)
    (utilityNamespaces : List String) :
    ∃ scope, scope.depth = 0 ∧ Place.Reaches ⟨.outermost, .statement statement⟩ ⟨scope, node⟩ ∧
      node.shape.describe scope utilityNamespaces =
        (Value.ofExpr value).describe true utilityNamespaces
          (Shape.memberEvidence .outermost (Text.join "." path) key) := by
  have property (keyStart : Position) :
      (TreeNode.entry (.pair keyStart (.plain key) value)).shape.describe
          (Scope.outermost.push path) utilityNamespaces =
        (Value.ofExpr value).describe true utilityNamespaces
          (Shape.memberEvidence .outermost (Text.join "." path) key) := by
    rw [← Shape.propertyEvidence_eq_memberEvidence nonempty identifiers]
    rfl
  cases spelled with
  | assigned start exprStart isPath =>
    refine ⟨.outermost, rfl, .refl, ?_⟩
    generalize whole : path ++ [key] = full at isPath
    cases isPath with
    | name word =>
      obtain ⟨none, -⟩ | ⟨-, last⟩ := List.append_eq_singleton_iff.mp whole
      · exact absurd none nonempty
      · cases last
    | member memberStart word inner =>
      obtain ⟨rfl, rfl⟩ := List.append_inj' whole rfl |>.imp_right List.singleton_inj.mp
      show (Shape.member _ _ _).describe _ _ = _
      rw [inner.path?]
      rfl
  | @nested outer inner target literal start exprStart keyStart split isPath nests =>
    have outerIdentifiers : ∀ segment ∈ outer, isIdentifier segment = true := fun segment member =>
      identifiers segment (split ▸ List.mem_append_left _ member)
    refine ⟨Scope.outermost.push path, rfl, ?_, property keyStart⟩
    rw [split, ← Scope.push_push]
    exact (Place.reaches_assigned isPath outerIdentifiers .outermost start exprStart literal).trans
      (Place.reaches_entry nests _)
  | @declared word inner literal declarators start literalStart keyStart split member nests =>
    have container : Outline.declaratorContainer (.name word) literal = word := by
      cases nests <;> rfl
    refine ⟨Scope.outermost.push path, rfl, ?_, property keyStart⟩
    have inside : path = [word] ++ inner := split
    rw [inside, ← Scope.push_push]
    exact (Place.reaches_declared member container .outermost start).trans
      (Place.reaches_entry nests _)

/-- Two spellings of a member tell the same. -/
theorem describe_eq_of_memberSpelling {path : List String} {key : String} {value : Expr}
    {statement other : Statement} {node otherNode : TreeNode} (nonempty : path ≠ [])
    (identifiers : ∀ segment ∈ path, isIdentifier segment = true)
    (spelled : MemberSpelling path key value statement node)
    (otherwise : MemberSpelling path key value other otherNode)
    (utilityNamespaces : List String) :
    ∃ scope otherScope, scope.depth = 0 ∧ otherScope.depth = 0 ∧
      Place.Reaches ⟨.outermost, .statement statement⟩ ⟨scope, node⟩ ∧
      Place.Reaches ⟨.outermost, .statement other⟩ ⟨otherScope, otherNode⟩ ∧
      node.shape.describe scope utilityNamespaces =
        otherNode.shape.describe otherScope utilityNamespaces := by
  obtain ⟨scope, depth, reaches, told⟩ :=
    spelled.exists_place nonempty identifiers utilityNamespaces
  obtain ⟨otherScope, otherDepth, otherReaches, otherTold⟩ :=
    otherwise.exists_place nonempty identifiers utilityNamespaces
  exact ⟨scope, otherScope, depth, otherDepth, reaches, otherReaches, told.trans otherTold.symm⟩

/-- `a.prototype.b = function (x) {}` -/
def assignedMethod : Statement :=
  .expression ⟨0, 1⟩ (.assign ⟨0, 1⟩ (.expr (prototypeChain none))
    (.function ⟨16, 1⟩ [.name "x"] []))

/-- The entry of the inner literal in `var a = { prototype: { b: function (x) {} } }`. -/
def nestedMethod : Entry :=
  .pair ⟨23, 1⟩ (.plain "b") (.function ⟨16, 1⟩ [.name "x"] [])

/-- `var a = { prototype: { b: function (x) {} } }` -/
def declaredMethod : Statement :=
  .declaration ⟨0, 1⟩ [.mk ⟨4, 1⟩ (.name "a")
    (some (.object ⟨8, 1⟩
      [.pair ⟨10, 1⟩ (.plain "prototype") (.object ⟨21, 1⟩ [nestedMethod])]))]

theorem describe_nestedMethod :
    MemberSpelling ["a", "prototype"] "b" (.function ⟨16, 1⟩ [.name "x"] []) assignedMethod
        (.statement assignedMethod) ∧
      MemberSpelling ["a", "prototype"] "b" (.function ⟨16, 1⟩ [.name "x"] []) declaredMethod
        (.entry nestedMethod) ∧
      ∃ scope otherScope, scope.depth = 0 ∧ otherScope.depth = 0 ∧
        Place.Reaches ⟨.outermost, .statement assignedMethod⟩
          ⟨scope, .statement assignedMethod⟩ ∧
        Place.Reaches ⟨.outermost, .statement declaredMethod⟩ ⟨otherScope, .entry nestedMethod⟩ ∧
        (TreeNode.statement assignedMethod).shape.describe scope [] =
          (TreeNode.entry nestedMethod).shape.describe otherScope [] :=
  have assigned : MemberSpelling ["a", "prototype"] "b" (.function ⟨16, 1⟩ [.name "x"] [])
      assignedMethod (.statement assignedMethod) :=
    .assigned _ _ (.member ⟨0, 1⟩ "b" (.member ⟨0, 1⟩ "prototype" (.name ⟨0, 1⟩ "a")))
  have declared : MemberSpelling ["a", "prototype"] "b" (.function ⟨16, 1⟩ [.name "x"] [])
      declaredMethod (.entry nestedMethod) :=
    .declared _ _ _ rfl (List.mem_singleton_self _)
      (.inside (List.mem_singleton_self _) (.here (List.mem_singleton_self _)))
  ⟨assigned, declared,
    describe_eq_of_memberSpelling (List.cons_ne_nil _ _) (by decide) assigned declared []⟩

end DocEntities
