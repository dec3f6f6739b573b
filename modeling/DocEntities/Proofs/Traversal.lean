/-
This file says what an outline is an outline of. A place is a node of a tree with the scope
around it, the places right below it are given by one function without recursion, and the
traversal of a place is the place itself followed by the traversals of the places below it.
The outline of a program holds the candidates of that traversal, every one with its scope and
in the order of the traversal, and nothing else.

A node is a candidate if a comment can document it: a statement, a declaration of a module, a
variable, a property, a member of a class or an expression. What an assignment assigns to and
the declaration below an `export` are no candidates, but what stands inside them is visited.
-/

import DocEntities.Outline
import Mathlib.Data.List.Basic
import Mathlib.Logic.Relation

namespace DocEntities

open Script

/-- A node of the tree of a program. -/
inductive TreeNode where
  | item (item : Item)
  | statement (statement : Statement)
  | declarator (declarator : Declarator)
  | entry (entry : Entry)
  | member (member : Member)
  | expr (expr : Expr)
  | key (key : Key)
  | pattern (pattern : Pattern)
  /-- What an assignment assigns to. -/
  | target (pattern : Pattern)
  | part (part : Part)

/-- A node and the scope around it. -/
structure Place where
  scope : Scope
  node : TreeNode

/-- Where a candidate stands, what it looks like, and the scope around it. -/
structure Site where
  scope : Scope
  start : Position
  shape : Shape
  deriving DecidableEq, Repr

/-- The line on which a site starts. -/
def Site.line (site : Site) : Nat :=
  site.start.line

/-! ### Candidates -/

def Script.Statement.start : Statement → Position
  | .expression start _ | .declaration start _ | .function start _ _ _ | .class start _ _ _
  | .compound start _ => start

def Script.Declarator.start : Declarator → Position
  | .mk start _ _ => start

/-- Where an entry of an object literal starts, if it is a property. -/
def Script.Entry.start? : Entry → Option Position
  | .pair start _ _ | .method start _ _ _ | .accessor start _ _ _ | .shorthand start _ _ =>
    some start
  | .spread _ => none

def Script.Member.start : Member → Position
  | .method start _ _ _ _ | .accessor start _ _ _ _ | .field start _ _ _ | .other start _ => start

/-- Where a declaration of a module starts. A statement is a candidate of its own. -/
def Script.Item.start? : Item → Option Position
  | .statement _ => none
  | .exported start _ | .defaultFunction start _ _ _ | .defaultClass start _ _ _
  | .other start _ => some start

/-- Where a candidate starts. -/
def TreeNode.start? : TreeNode → Option Position
  | .item inner => inner.start?
  | .statement inner => some inner.start
  | .declarator inner => some inner.start
  | .entry inner => inner.start?
  | .member inner => some inner.start
  | .expr inner => some inner.start
  | .key _ | .pattern _ | .target _ | .part _ => none

/-- What a candidate looks like. -/
def TreeNode.shape : TreeNode → Shape
  | .item inner => .ofItem inner
  | .statement inner => .ofStatement inner
  | .declarator inner => .ofDeclarator inner
  | .entry inner => .ofEntry inner
  | .member inner => .ofMember inner
  | .expr inner => .ofExpr inner
  | .key _ | .pattern _ | .target _ | .part _ => .other

/-- The site of a place, if its node is a candidate. -/
def Place.site? (place : Place) : Option Site :=
  place.node.start?.map fun start => ⟨place.scope, start, place.node.shape⟩

/-! ### The places below a place

There is one function for each sort of node. Functions and containers are where the scope
changes: a function is entered for its parameters and its body, a container for its value. -/

/-- Goes into a container, if there is one. -/
def Scope.inside (scope : Scope) (container : Option String) : Scope :=
  scope.push container.toList

def Scope.places (scope : Scope) (nodes : List TreeNode) : List Place :=
  nodes.map (Place.mk scope)

/-- The nodes of a function, which are inside it. -/
def functionNodes (params : List Pattern) (body : List Statement) : List TreeNode :=
  params.map .pattern ++ body.map .statement

/-- The nodes of a class, its members before its base. -/
def classNodes (members : List Script.Member) (base : Option Expr) : List TreeNode :=
  members.map .member ++ base.toList.map .expr

namespace Place

/-- The places right below an expression. The value of an assignment is inside the path that
is assigned to. -/
def belowExpr (scope : Scope) : Expr → List Place
  | .name _ _ | .this _ | .text _ _ => []
  | .member _ object key => scope.places [.expr object, .key key]
  | .superMember _ key => scope.places [.key key]
  | .paren _ inner => scope.places [.expr inner]
  | .function _ params body => scope.enter.places (functionNodes params body)
  | .arrow _ params body => scope.enter.places (params.map .pattern ++ body.map .part)
  | .class _ members base => scope.places (classNodes members base)
  | .object _ entries => scope.places (entries.map .entry)
  | .call _ callee arguments | .new _ callee arguments =>
    scope.places (.expr callee :: arguments.map .part)
  | .assign _ target value =>
    (scope.push (Outline.pathSegments target.targetPath?)).places [.target target, .expr value]
  | .array _ parts | .compound _ parts => scope.places (parts.map .part)

def belowKey (scope : Scope) : Key → List Place
  | .plain _ => []
  | .computed expr => scope.places [.expr expr]

def belowPattern (scope : Scope) : Pattern → List Place
  | .name _ => []
  | .default inner value => scope.places [.pattern inner, .expr value]
  | .rest inner => scope.places [.pattern inner]
  | .group parts => scope.places (parts.map .pattern)
  | .expr expr => scope.places [.expr expr]

/-- The places right below what is assigned to. A member or an expression in parentheses that
is assigned to is passed over. -/
def belowTarget (scope : Scope) : Pattern → List Place
  | .name _ => []
  | .default inner value => scope.places [.target inner, .expr value]
  | .rest inner => scope.places [.target inner]
  | .group parts => scope.places (parts.map .pattern)
  | .expr (.member start object key) => belowExpr scope (.member start object key)
  | .expr (.superMember start key) => belowExpr scope (.superMember start key)
  | .expr (.paren start inner) => belowExpr scope (.paren start inner)
  | .expr expr => scope.places [.expr expr]

def belowEntry (scope : Scope) : Entry → List Place
  | .pair _ key value =>
    (scope.inside (Outline.pairContainer key value)).places [.key key, .expr value]
  | .method _ key params body =>
    scope.places [.key key] ++ scope.enter.places (functionNodes params body)
  | .accessor _ key params body => scope.enter.places (.key key :: functionNodes params body)
  | .shorthand _ _ value => scope.places (value.toList.map .expr)
  | .spread expr => scope.places [.expr expr]

def belowMember (scope : Scope) : Script.Member → List Place
  | .method _ key _ params body | .accessor _ key _ params body =>
    scope.places [.key key] ++ scope.enter.places (functionNodes params body)
  | .field _ key _ value => scope.places (.key key :: value.toList.map .expr)
  | .other _ parts => scope.places (parts.map .part)

def belowDeclarator (scope : Scope) : Declarator → List Place
  | .mk _ target value =>
    (scope.inside (Outline.declaratorContainer target value)).places
      (.pattern target :: value.toList.map .expr)

def belowStatement (scope : Scope) : Statement → List Place
  | .expression _ expr => scope.places [.expr expr]
  | .declaration _ declarators => scope.places (declarators.map .declarator)
  | .function _ _ params body => scope.enter.places (functionNodes params body)
  | .class _ word members base => (scope.push [word]).places (classNodes members base)
  | .compound _ parts => scope.places (parts.map .part)

def belowPart (scope : Scope) : Part → List Place
  | .expr expr | .spread expr => scope.places [.expr expr]
  | .statement statement => scope.places [.statement statement]
  | .pattern pattern => scope.places [.pattern pattern]
  | .declarator declarator => scope.places [.declarator declarator]
  | .function params body => scope.enter.places (functionNodes params body)

def belowItem (scope : Scope) : Item → List Place
  | .statement statement => scope.places [.statement statement]
  | .exported _ declaration => belowStatement scope declaration
  | .defaultFunction _ _ params body => scope.enter.places (functionNodes params body)
  | .defaultClass _ word members base => (scope.inside word).places (classNodes members base)
  | .other _ parts => scope.places (parts.map .part)

/-- The places right below a place, in the order in which they are visited. -/
def below (place : Place) : List Place :=
  match place.node with
  | .item item => belowItem place.scope item
  | .statement statement => belowStatement place.scope statement
  | .declarator declarator => belowDeclarator place.scope declarator
  | .entry entry => belowEntry place.scope entry
  | .member member => belowMember place.scope member
  | .expr expr => belowExpr place.scope expr
  | .key key => belowKey place.scope key
  | .pattern pattern => belowPattern place.scope pattern
  | .target pattern => belowTarget place.scope pattern
  | .part part => belowPart place.scope part

theorem mem_places {scope : Scope} {nodes : List TreeNode} {place : Place} :
    place ∈ scope.places nodes ↔ place.scope = scope ∧ place.node ∈ nodes := by
  obtain ⟨around, node⟩ := place
  simp only [Scope.places, List.mem_map, Place.mk.injEq]
  grind

theorem sizeOf_lt_of_mem_belowExpr {scope : Scope} {expr : Expr} {child : Place}
    (member : child ∈ belowExpr scope expr) : sizeOf child.node < 1 + sizeOf expr := by
  cases expr <;>
    grind [belowExpr, mem_places, functionNodes, classNodes, → List.sizeOf_lt_of_mem]

theorem sizeOf_lt_of_mem_belowStatement {scope : Scope} {statement : Statement} {child : Place}
    (member : child ∈ belowStatement scope statement) :
    sizeOf child.node < 1 + sizeOf statement := by
  cases statement <;>
    grind [belowStatement, mem_places, functionNodes, classNodes, → List.sizeOf_lt_of_mem]

theorem sizeOf_lt_of_mem_belowTarget {scope : Scope} {target : Pattern} {child : Place}
    (member : child ∈ belowTarget scope target) : sizeOf child.node < 1 + sizeOf target := by
  revert member
  fun_cases belowTarget scope target <;> intro member <;>
    grind [belowExpr, mem_places, → List.sizeOf_lt_of_mem]

/-- What is right below a place is a piece of it. -/
theorem sizeOf_lt_of_mem_below {place child : Place} (member : child ∈ place.below) :
    sizeOf child.node < sizeOf place.node := by
  obtain ⟨scope, node⟩ := place
  simp only [below] at member
  cases node with
  | item inner =>
    cases inner with
    | exported start declaration =>
      have smaller := sizeOf_lt_of_mem_belowStatement member
      grind
    | _ =>
      grind [belowItem, mem_places, functionNodes, classNodes, → List.sizeOf_lt_of_mem]
  | statement inner =>
    have smaller := sizeOf_lt_of_mem_belowStatement member
    grind
  | declarator inner =>
    cases inner
    grind [belowDeclarator, mem_places]
  | entry inner =>
    cases inner <;> grind [belowEntry, mem_places, functionNodes, → List.sizeOf_lt_of_mem]
  | member inner =>
    cases inner <;> grind [belowMember, mem_places, functionNodes, → List.sizeOf_lt_of_mem]
  | expr inner =>
    have smaller := sizeOf_lt_of_mem_belowExpr member
    grind
  | key inner => cases inner <;> grind [belowKey, mem_places]
  | pattern inner => cases inner <;> grind [belowPattern, mem_places, → List.sizeOf_lt_of_mem]
  | target inner =>
    have smaller := sizeOf_lt_of_mem_belowTarget member
    grind
  | part inner =>
    cases inner <;> grind [belowPart, mem_places, functionNodes, → List.sizeOf_lt_of_mem]

/-! ### The traversal of a place -/

/-- A place and everything below it, in the order in which it is visited. -/
def traversal (place : Place) : List Place :=
  place :: place.below.attach.flatMap fun child => child.1.traversal
termination_by sizeOf place.node
decreasing_by exact sizeOf_lt_of_mem_below child.2

theorem traversal_eq (place : Place) :
    place.traversal = place :: place.below.flatMap traversal := by
  rw [traversal, List.flatMap_subtype (fun _ _ => rfl), List.unattach_attach]

/-- What holds of a place if it holds of everything right below it holds of every place. -/
theorem belowInduction {motive : Place → Prop}
    (step : ∀ place : Place, (∀ child ∈ place.below, motive child) → motive place)
    (place : Place) : motive place :=
  step place fun child _ => belowInduction step child
termination_by sizeOf place.node
decreasing_by exact sizeOf_lt_of_mem_below ‹_›

/-- One place is somewhere below another, or is that other. -/
def Reaches (place other : Place) : Prop :=
  Relation.ReflTransGen (fun parent child => child ∈ parent.below) place other

/-- The traversal visits what is below the place, whatever the depth. -/
theorem mem_traversal_iff {place other : Place} :
    other ∈ place.traversal ↔ place.Reaches other := by
  constructor
  · intro member
    induction place using belowInduction with
    | step place inductionHypothesis =>
      rw [traversal_eq] at member
      rcases List.mem_cons.mp member with rfl | later
      · exact Relation.ReflTransGen.refl
      · obtain ⟨child, childMember, inside⟩ := List.mem_flatMap.mp later
        exact Relation.ReflTransGen.head childMember (inductionHypothesis child childMember inside)
  · intro reaches
    induction reaches using Relation.ReflTransGen.head_induction_on with
    | refl =>
      rw [traversal_eq]
      exact List.mem_cons_self
    | head childMember _ inside =>
      rw [traversal_eq]
      exact List.mem_cons_of_mem _ (List.mem_flatMap.mpr ⟨_, childMember, inside⟩)

end Place

/-! ### The sites of an outline -/

namespace Outline

/-- The sites of an outline that is walked along from a scope, in order. -/
def sites (scope : Scope) : Outline → List Site
  | .nil => []
  | .site start shape inside after =>
    ⟨scope, start, shape⟩ :: (inside.sites scope ++ after.sites scope)
  | .within segments inside after => inside.sites (scope.push segments) ++ after.sites scope
  | .function inside after => inside.sites scope.enter ++ after.sites scope

@[simp]
theorem sites_append (scope : Scope) (first second : Outline) :
    (first ++ second).sites scope = first.sites scope ++ second.sites scope := by
  change (first.append second).sites scope = _
  induction first generalizing scope with
  | nil => rfl
  | site start shape inside after _ inductionHypothesis =>
    simp [append, sites, inductionHypothesis]
  | within segments inside after _ inductionHypothesis =>
    simp [append, sites, inductionHypothesis]
  | function inside after _ inductionHypothesis =>
    simp [append, sites, inductionHypothesis]

@[simp]
theorem sites_nil (scope : Scope) : Outline.nil.sites scope = [] :=
  rfl

@[simp]
theorem sites_single (scope : Scope) (start : Position) (shape : Shape) (inside : Outline) :
    (single start shape inside).sites scope = ⟨scope, start, shape⟩ :: inside.sites scope := by
  simp [single, sites]

@[simp]
theorem sites_within (scope : Scope) (segments : List String) (inside : Outline) :
    (within segments inside .nil).sites scope = inside.sites (scope.push segments) := by
  simp [sites]

@[simp]
theorem sites_inFunction (scope : Scope) (inside : Outline) :
    (inFunction inside).sites scope = inside.sites scope.enter := by
  simp [inFunction, sites]

@[simp]
theorem sites_contained (scope : Scope) (container : Option String) (inside : Outline) :
    (contained container inside).sites scope = inside.sites (scope.inside container) := by
  cases container with
  | none => simp [contained, Scope.inside, Scope.push]
  | some segment => simp [contained, Scope.inside]

/-- The outline of a node. -/
def ofNode : TreeNode → Outline
  | .item inner => ofItem inner
  | .statement inner => ofStatement inner
  | .declarator inner => ofDeclarator inner
  | .entry inner => ofEntry inner
  | .member inner => ofMember inner
  | .expr inner => ofExpr inner
  | .key inner => ofKey inner
  | .pattern inner => ofPattern inner
  | .target inner => ofTarget inner
  | .part inner => ofPart inner

end Outline

/-- The sites of the outline of a place. -/
def Place.sites (place : Place) : List Site :=
  (Outline.ofNode place.node).sites place.scope

/-- The sites of the outlines of nodes, one after the other. -/
def Scope.sitesOf (scope : Scope) (nodes : List TreeNode) : List Site :=
  (scope.places nodes).flatMap Place.sites

namespace Scope

@[simp]
theorem flatMap_sites_places (scope : Scope) (nodes : List TreeNode) :
    (scope.places nodes).flatMap Place.sites = scope.sitesOf nodes :=
  rfl

@[simp]
theorem sitesOf_nil (scope : Scope) : scope.sitesOf [] = [] :=
  rfl

@[simp]
theorem sitesOf_cons (scope : Scope) (node : TreeNode) (nodes : List TreeNode) :
    scope.sitesOf (node :: nodes) = (Outline.ofNode node).sites scope ++ scope.sitesOf nodes :=
  rfl

@[simp]
theorem sitesOf_append (scope : Scope) (first second : List TreeNode) :
    scope.sitesOf (first ++ second) = scope.sitesOf first ++ scope.sitesOf second := by
  simp [sitesOf, places]

end Scope

namespace Outline

/-- The outline of a list of nodes of one sort has the sites of the nodes. -/
theorem sites_ofList {α : Type} (wrap : α → TreeNode) (outline : List α → Outline)
    (nil : outline [] = .nil)
    (cons : ∀ head rest, outline (head :: rest) = ofNode (wrap head) ++ outline rest)
    (scope : Scope) (values : List α) :
    (outline values).sites scope = scope.sitesOf (values.map wrap) := by
  induction values with
  | nil => rw [nil, sites_nil, List.map_nil, Scope.sitesOf_nil]
  | cons head rest inductionHypothesis =>
    rw [cons, sites_append, inductionHypothesis, List.map_cons, Scope.sitesOf_cons]

@[simp]
theorem sites_ofPatterns (scope : Scope) (patterns : List Pattern) :
    (ofPatterns patterns).sites scope = scope.sitesOf (patterns.map .pattern) :=
  sites_ofList .pattern ofPatterns rfl (fun _ _ => rfl) scope patterns

@[simp]
theorem sites_ofEntries (scope : Scope) (entries : List Entry) :
    (ofEntries entries).sites scope = scope.sitesOf (entries.map .entry) :=
  sites_ofList .entry ofEntries rfl (fun _ _ => rfl) scope entries

@[simp]
theorem sites_ofMembers (scope : Scope) (members : List Script.Member) :
    (ofMembers members).sites scope = scope.sitesOf (members.map .member) :=
  sites_ofList .member ofMembers rfl (fun _ _ => rfl) scope members

@[simp]
theorem sites_ofDeclarators (scope : Scope) (declarators : List Declarator) :
    (ofDeclarators declarators).sites scope = scope.sitesOf (declarators.map .declarator) :=
  sites_ofList .declarator ofDeclarators rfl (fun _ _ => rfl) scope declarators

@[simp]
theorem sites_ofStatements (scope : Scope) (statements : List Statement) :
    (ofStatements statements).sites scope = scope.sitesOf (statements.map .statement) :=
  sites_ofList .statement ofStatements rfl (fun _ _ => rfl) scope statements

@[simp]
theorem sites_ofParts (scope : Scope) (parts : List Part) :
    (ofParts parts).sites scope = scope.sitesOf (parts.map .part) :=
  sites_ofList .part ofParts rfl (fun _ _ => rfl) scope parts

@[simp]
theorem sites_ofExpr? (scope : Scope) (expr : Option Expr) :
    (ofExpr? expr).sites scope = scope.sitesOf (expr.toList.map .expr) := by
  cases expr <;> simp [ofExpr?, ofNode]

theorem sites_ofItems (scope : Scope) (items : List Item) :
    (ofItems items).sites scope = scope.sitesOf (items.map .item) :=
  sites_ofList .item ofItems rfl (fun _ _ => rfl) scope items

end Outline

/-! ### One place at a time -/

namespace Place

open Outline

theorem sites_ofExpr (scope : Scope) (expr : Expr) :
    (ofExpr expr).sites scope =
      ⟨scope, expr.start, .ofExpr expr⟩ :: (belowExpr scope expr).flatMap sites := by
  cases expr <;>
    simp [ofExpr, belowExpr, functionNodes, classNodes, Expr.start, Shape.ofExpr, ofNode]

theorem sites_ofTarget (scope : Scope) (target : Pattern) :
    (ofTarget target).sites scope = (belowTarget scope target).flatMap sites := by
  fun_cases belowTarget scope target <;> simp [ofTarget, belowExpr, ofNode]

theorem sites_ofStatement (scope : Scope) (statement : Statement) :
    (ofStatement statement).sites scope =
      ⟨scope, statement.start, .ofStatement statement⟩ ::
        (belowStatement scope statement).flatMap sites := by
  cases statement <;>
    simp [ofStatement, belowStatement, functionNodes, classNodes, Statement.start,
      Shape.ofStatement, ofNode]

theorem sites_ofDeclaration (scope : Scope) (declaration : Statement) :
    (ofDeclaration declaration).sites scope = (belowStatement scope declaration).flatMap sites := by
  cases declaration <;> simp [ofDeclaration, belowStatement, functionNodes, classNodes, ofNode]

/-- The sites of a place are its own, if it is a candidate, and those of the places below. -/
theorem sites_eq (place : Place) :
    place.sites = place.site?.toList ++ place.below.flatMap sites := by
  obtain ⟨scope, node⟩ := place
  simp only [sites, site?, below]
  cases node with
  | item inner =>
    cases inner <;>
      simp [ofNode, ofItem, belowItem, sites_ofDeclaration, functionNodes, classNodes,
        TreeNode.start?, TreeNode.shape, Item.start?, Shape.ofItem]
  | statement inner => simp [ofNode, sites_ofStatement, TreeNode.start?, TreeNode.shape]
  | declarator inner =>
    cases inner
    simp [ofNode, ofDeclarator, belowDeclarator, TreeNode.start?, TreeNode.shape, Declarator.start]
  | entry inner =>
    cases inner <;>
      simp [ofNode, ofEntry, belowEntry, functionNodes, TreeNode.start?, TreeNode.shape,
        Entry.start?]
  | member inner =>
    cases inner <;>
      simp [ofNode, ofMember, belowMember, functionNodes, TreeNode.start?, TreeNode.shape,
        Member.start, Shape.ofMember]
  | expr inner => simp [ofNode, sites_ofExpr, TreeNode.start?, TreeNode.shape]
  | key inner => cases inner <;> simp [ofNode, ofKey, belowKey, TreeNode.start?]
  | pattern inner => cases inner <;> simp [ofNode, ofPattern, belowPattern, TreeNode.start?]
  | target inner => simp [ofNode, sites_ofTarget, TreeNode.start?]
  | part inner => cases inner <;> simp [ofNode, ofPart, belowPart, functionNodes, TreeNode.start?]

/-- The sites of a place are the candidates of its traversal. -/
theorem sites_eq_traversal (place : Place) :
    place.sites = place.traversal.filterMap site? := by
  induction place using belowInduction with
  | step place inductionHypothesis =>
    have below : (place.below.flatMap traversal).filterMap site? = place.below.flatMap sites := by
      rw [List.filterMap_flatMap]
      exact List.flatMap_congr fun child member => (inductionHypothesis child member).symm
    rw [sites_eq, traversal_eq, ← below]
    cases found : place.site? with
    | none => rw [List.filterMap_cons_none found, Option.toList_none, List.nil_append]
    | some site => rw [List.filterMap_cons_some found, Option.toList_some, List.singleton_append]

end Place

/-! ### The traversal of a program -/

/-- Everything in a program, in the order in which it is visited. -/
def Script.Program.traversal (program : Program) : List Place :=
  (Scope.outermost.places (program.items.map .item)).flatMap Place.traversal

/-- A place is somewhere in a program. -/
def Script.Program.Holds (program : Program) (place : Place) : Prop :=
  ∃ item ∈ program.items, Place.Reaches ⟨.outermost, .item item⟩ place

theorem Script.Program.mem_traversal_iff {program : Program} {place : Place} :
    place ∈ program.traversal ↔ program.Holds place := by
  simp only [traversal, Scope.places, List.map_map, List.mem_flatMap, List.mem_map,
    Place.mem_traversal_iff, Holds]
  constructor
  · rintro ⟨_, ⟨item, member, rfl⟩, reaches⟩
    exact ⟨item, member, reaches⟩
  · rintro ⟨item, member, reaches⟩
    exact ⟨_, ⟨item, member, rfl⟩, reaches⟩

/-- The candidates of a program, in the order in which they are visited. -/
def Script.Program.candidates (program : Program) : List Site :=
  program.traversal.filterMap Place.site?

/-- The outline of a program holds its candidates, and nothing else. -/
theorem Outline.sites_ofProgram (program : Program) :
    (ofProgram program).sites .outermost = program.candidates := by
  have eachItem := fun place (_ : place ∈ Scope.outermost.places (program.items.map .item)) =>
    Place.sites_eq_traversal place
  rw [ofProgram, sites_ofItems, Script.Program.candidates, Script.Program.traversal,
    List.filterMap_flatMap]
  exact List.flatMap_congr eachItem

end DocEntities
