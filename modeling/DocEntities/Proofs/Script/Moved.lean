/-
This file moves a program down in its source. Further lines come to stand in front of it, so every
node is that many lines further down, and offsets grow in their order. Nothing that is read off the
tree depends on where it stands: names, paths and shapes stay as they are, but for the offsets that
the shape of a class keeps of its members. So the outline of the program moves with it.
-/

import DocEntities.Outline
import Mathlib.Order.Monotone.Basic

namespace DocEntities

namespace Script

/-- What moves a source down: the lines that come to stand in front of it, and the offset at which
each character is then found. -/
structure Shift where
  above : List String
  offset : Nat → Nat
  increasing : StrictMono offset

/-- Lines come to stand in front of a source, and with them a number of characters. -/
def Shift.below (above : List String) (characters : Nat) : Shift where
  above := above
  offset := (· + characters)
  increasing := fun _ _ before => Nat.add_lt_add_right before characters

/-- By how many lines a source moves. -/
def Shift.lines (shift : Shift) : Nat :=
  shift.above.length

/-! ### Moving a program -/

/-- Where a place is found after a shift. -/
def Position.moved (shift : Shift) (position : Position) : Position :=
  ⟨shift.offset position.offset, position.line + shift.lines⟩

mutual

/-- An expression moved down. -/
def Expr.moved (shift : Shift) : Expr → Expr
  | .name start word => .name (start.moved shift) word
  | .this start => .this (start.moved shift)
  | .text start value => .text (start.moved shift) value
  | .member start object key =>
    .member (start.moved shift) (object.moved shift) (key.moved shift)
  | .superMember start key => .superMember (start.moved shift) (key.moved shift)
  | .paren start inner => .paren (start.moved shift) (inner.moved shift)
  | .function start params body =>
    .function (start.moved shift) (movedPatterns shift params) (movedStatements shift body)
  | .arrow start params body =>
    .arrow (start.moved shift) (movedPatterns shift params) (movedParts shift body)
  | .class start members base =>
    .class (start.moved shift) (movedMembers shift members) (movedExpr? shift base)
  | .object start entries => .object (start.moved shift) (movedEntries shift entries)
  | .call start callee arguments =>
    .call (start.moved shift) (callee.moved shift) (movedParts shift arguments)
  | .new start callee arguments =>
    .new (start.moved shift) (callee.moved shift) (movedParts shift arguments)
  | .assign start target value =>
    .assign (start.moved shift) (target.moved shift) (value.moved shift)
  | .array start elements => .array (start.moved shift) (movedParts shift elements)
  | .compound start parts => .compound (start.moved shift) (movedParts shift parts)

/-- An expression that may be missing, moved down. -/
def movedExpr? (shift : Shift) : Option Expr → Option Expr
  | none => none
  | some expr => some (expr.moved shift)

/-- A key moved down. -/
def Key.moved (shift : Shift) : Key → Key
  | .plain name => .plain name
  | .computed expr => .computed (expr.moved shift)

/-- A pattern moved down. -/
def Pattern.moved (shift : Shift) : Pattern → Pattern
  | .name word => .name word
  | .default inner value => .default (inner.moved shift) (value.moved shift)
  | .rest inner => .rest (inner.moved shift)
  | .group parts => .group (movedPatterns shift parts)
  | .expr expr => .expr (expr.moved shift)

/-- Patterns moved down. -/
def movedPatterns (shift : Shift) : List Pattern → List Pattern
  | [] => []
  | head :: rest => head.moved shift :: movedPatterns shift rest

/-- An entry of an object literal moved down. -/
def Entry.moved (shift : Shift) : Entry → Entry
  | .pair start key value => .pair (start.moved shift) (key.moved shift) (value.moved shift)
  | .method start key params body =>
    .method (start.moved shift) (key.moved shift) (movedPatterns shift params)
      (movedStatements shift body)
  | .accessor start key params body =>
    .accessor (start.moved shift) (key.moved shift) (movedPatterns shift params)
      (movedStatements shift body)
  | .shorthand start name value => .shorthand (start.moved shift) name (movedExpr? shift value)
  | .spread expr => .spread (expr.moved shift)

/-- The entries of an object literal moved down. -/
def movedEntries (shift : Shift) : List Entry → List Entry
  | [] => []
  | head :: rest => head.moved shift :: movedEntries shift rest

/-- A member of a class moved down. -/
def Member.moved (shift : Shift) : Member → Member
  | .method start key isStatic params body =>
    .method (start.moved shift) (key.moved shift) isStatic (movedPatterns shift params)
      (movedStatements shift body)
  | .accessor start key isStatic params body =>
    .accessor (start.moved shift) (key.moved shift) isStatic (movedPatterns shift params)
      (movedStatements shift body)
  | .field start key isStatic value =>
    .field (start.moved shift) (key.moved shift) isStatic (movedExpr? shift value)
  | .other start parts => .other (start.moved shift) (movedParts shift parts)

/-- The members of a class moved down. -/
def movedMembers (shift : Shift) : List Member → List Member
  | [] => []
  | head :: rest => head.moved shift :: movedMembers shift rest

/-- A variable moved down. -/
def Declarator.moved (shift : Shift) : Declarator → Declarator
  | .mk start target value => .mk (start.moved shift) (target.moved shift) (movedExpr? shift value)

/-- Variables moved down. -/
def movedDeclarators (shift : Shift) : List Declarator → List Declarator
  | [] => []
  | head :: rest => head.moved shift :: movedDeclarators shift rest

/-- A statement moved down. -/
def Statement.moved (shift : Shift) : Statement → Statement
  | .expression start expr => .expression (start.moved shift) (expr.moved shift)
  | .declaration start declarators =>
    .declaration (start.moved shift) (movedDeclarators shift declarators)
  | .function start name params body =>
    .function (start.moved shift) name (movedPatterns shift params) (movedStatements shift body)
  | .class start name members base =>
    .class (start.moved shift) name (movedMembers shift members) (movedExpr? shift base)
  | .compound start parts => .compound (start.moved shift) (movedParts shift parts)

/-- Statements moved down. -/
def movedStatements (shift : Shift) : List Statement → List Statement
  | [] => []
  | head :: rest => head.moved shift :: movedStatements shift rest

/-- A part moved down. -/
def Part.moved (shift : Shift) : Part → Part
  | .expr expr => .expr (expr.moved shift)
  | .spread expr => .spread (expr.moved shift)
  | .statement statement => .statement (statement.moved shift)
  | .pattern pattern => .pattern (pattern.moved shift)
  | .declarator declarator => .declarator (declarator.moved shift)
  | .function params body => .function (movedPatterns shift params) (movedStatements shift body)

/-- Parts moved down. -/
def movedParts (shift : Shift) : List Part → List Part
  | [] => []
  | head :: rest => head.moved shift :: movedParts shift rest

end

/-- What stands at the top level of a module, moved down. -/
def Item.moved (shift : Shift) : Item → Item
  | .statement inner => .statement (inner.moved shift)
  | .exported start declaration => .exported (start.moved shift) (declaration.moved shift)
  | .defaultFunction start name params body =>
    .defaultFunction (start.moved shift) name (movedPatterns shift params)
      (movedStatements shift body)
  | .defaultClass start name members base =>
    .defaultClass (start.moved shift) name (movedMembers shift members) (movedExpr? shift base)
  | .other start parts => .other (start.moved shift) (movedParts shift parts)

/-- A program moved down. -/
def Program.moved (shift : Shift) (program : Program) : Program :=
  ⟨program.items.map (Item.moved shift)⟩

/-! ### Names and paths stay as they are -/

section

variable (shift : Shift)

@[simp]
theorem Key.propertyName?_moved (key : Key) :
    (key.moved shift).propertyName? = key.propertyName? := by
  cases key <;> rfl

@[simp]
theorem Key.memberName?_moved (key : Key) : (key.moved shift).memberName? = key.memberName? := by
  cases key with
  | plain name => rfl
  | computed expr => cases expr <;> rfl

theorem Expr.unparen_moved : (expr : Expr) → (expr.moved shift).unparen = expr.unparen.moved shift
  | .paren _ inner => inner.unparen_moved
  | .name _ _ | .this _ | .text _ _ | .member _ _ _ | .superMember _ _ | .function _ _ _
  | .arrow _ _ _ | .class _ _ _ | .object _ _ | .call _ _ _ | .new _ _ _ | .assign _ _ _
  | .array _ _ | .compound _ _ => rfl

@[simp]
theorem Expr.path?_moved : (expr : Expr) → (expr.moved shift).path? = expr.path?
  | .member _ owner key => by
    simp only [Expr.moved, path?, owner.path?_moved, key.memberName?_moved]
  | .paren _ inner => inner.path?_moved
  | .name _ _ | .this _ | .text _ _ | .superMember _ _ | .function _ _ _
  | .arrow _ _ _ | .class _ _ _ | .object _ _ | .call _ _ _ | .new _ _ _ | .assign _ _ _
  | .array _ _ | .compound _ _ => rfl

@[simp]
theorem Pattern.paramName?_moved : (pattern : Pattern) →
    (pattern.moved shift).paramName? = pattern.paramName?
  | .default inner _ => inner.paramName?_moved
  | .rest inner => inner.paramName?_moved
  | .name _ | .group _ | .expr _ => rfl

@[simp]
theorem Pattern.targetPath?_moved (target : Pattern) :
    (target.moved shift).targetPath? = target.targetPath? := by
  cases target with
  | expr inner =>
    cases inner with
    | member start object key => exact Expr.path?_moved shift (.member start object key)
    | _ => rfl
  | _ => rfl

theorem movedPatterns_eq_map (patterns : List Pattern) :
    movedPatterns shift patterns = patterns.map (Pattern.moved shift) := by
  induction patterns with
  | nil => rfl
  | cons head rest inductionHypothesis => exact congrArg _ inductionHypothesis

theorem movedEntries_eq_map (entries : List Entry) :
    movedEntries shift entries = entries.map (Entry.moved shift) := by
  induction entries with
  | nil => rfl
  | cons head rest inductionHypothesis => exact congrArg _ inductionHypothesis

@[simp]
theorem path?_movedExpr? (base : Option Expr) :
    (movedExpr? shift base).bind Expr.path? = base.bind Expr.path? := by
  cases base with
  | none => rfl
  | some expr => exact expr.path?_moved shift

theorem Entry.member?_moved (entry : Entry) :
    (entry.moved shift).member? = entry.member?.map (Prod.map shift.offset id) := by
  cases entry <;> simp [Entry.moved, Entry.member?, Function.comp_def, Position.moved]

end

end Script

open Script

/-! ### Shapes keep what they tell -/

/-- What a value tells after a shift: the members of a class are found at other offsets. -/
@[simp]
def Value.moved (shift : Shift) : Value → Value
  | .extension base members => .extension base (members.map (Prod.map shift.offset id))
  | value => value

/-- A shape after a shift. -/
@[simp]
def Shape.moved (shift : Shift) : Shape → Shape
  | .member object name value => .member object name (value.moved shift)
  | .binding name value => .binding name (value.moved shift)
  | .property name value => .property name (value.moved shift)
  | .classMember name isStatic kind value => .classMember name isStatic kind (value.moved shift)
  | .other => .other

section

variable (shift : Shift)

@[simp]
theorem paramNames_movedPatterns (params : List Pattern) :
    paramNames (movedPatterns shift params) = paramNames params := by
  rw [paramNames, movedPatterns_eq_map, List.filterMap_map]
  exact congrArg (params.filterMap ·) (funext fun param => param.paramName?_moved shift)

theorem extensionMembers_movedParts (arguments : List Part) :
    extensionMembers (movedParts shift arguments) =
      (extensionMembers arguments).map (Prod.map shift.offset id) := by
  cases arguments with
  | nil => rfl
  | cons first rest =>
    cases first with
    | expr argument =>
      simp only [movedParts, Part.moved, extensionMembers, Expr.unparen_moved]
      cases argument.unparen with
      | object start entries =>
        simp only [Expr.moved, movedEntries_eq_map, List.filterMap_map, List.map_filterMap]
        exact congrArg (entries.filterMap ·) (funext fun entry => entry.member?_moved shift)
      | _ => rfl
    | _ => rfl

@[simp]
theorem Value.ofExpr_moved (expr : Expr) :
    Value.ofExpr (expr.moved shift) = (Value.ofExpr expr).moved shift := by
  rw [Value.ofExpr, Value.ofExpr, Expr.unparen_moved]
  cases expr.unparen with
  | function start params body => simp [Expr.moved]
  | arrow start params body => simp [Expr.moved]
  | «class» start members base => simp [Expr.moved]
  | call start callee arguments =>
    cases callee with
    | member start object key =>
      simp only [Expr.moved, Key.memberName?_moved, Expr.path?_moved, extensionMembers_movedParts]
      split <;> rfl
    | _ => rfl
  | new start callee arguments => cases callee <;> rfl
  | _ => rfl

@[simp]
theorem Value.ofExpr?_moved (expr : Option Expr) :
    Value.ofExpr? (movedExpr? shift expr) = (Value.ofExpr? expr).moved shift := by
  cases expr with
  | none => rfl
  | some expr => exact Value.ofExpr_moved shift expr

namespace Shape

@[simp]
theorem ofExpr_moved (expr : Expr) :
    Shape.ofExpr (expr.moved shift) = (Shape.ofExpr expr).moved shift := by
  cases expr with
  | assign start target value =>
    cases target with
    | name word => simp [Expr.moved, Pattern.moved, ofExpr]
    | expr inner =>
      cases inner with
      | member start object key => simp [Expr.moved, Pattern.moved, ofExpr]
      | _ => rfl
    | _ => rfl
  | member start object key => simp [Expr.moved, ofExpr]
  | _ => rfl

theorem ofDeclarator_moved (declarator : Declarator) :
    Shape.ofDeclarator (declarator.moved shift) = (Shape.ofDeclarator declarator).moved shift := by
  obtain ⟨start, target, value⟩ := declarator
  cases target <;> simp [Declarator.moved, Pattern.moved, ofDeclarator]

theorem ofStatement_moved (statement : Statement) :
    Shape.ofStatement (statement.moved shift) = (Shape.ofStatement statement).moved shift := by
  cases statement with
  | expression start expr => exact ofExpr_moved shift expr
  | declaration start declarators =>
    cases declarators with
    | nil => rfl
    | cons first rest => exact ofDeclarator_moved shift first
  | function start name params body =>
    simp [Statement.moved, ofStatement]
  | «class» start name members base =>
    simp [Statement.moved, ofStatement]
  | compound start parts => rfl

theorem ofItem_moved (item : Item) :
    Shape.ofItem (item.moved shift) = (Shape.ofItem item).moved shift := by
  cases item with
  | statement inner => exact ofStatement_moved shift inner
  | exported start declaration => exact ofStatement_moved shift declaration
  | defaultFunction start name params body =>
    cases name <;> simp [Item.moved, ofItem]
  | defaultClass start name members base =>
    cases name <;> simp [Item.moved, ofItem]
  | other start parts => rfl

end Shape

/-! ### Outlines -/

namespace Outline

/-- An outline moved down. -/
def moved : Outline → Outline
  | .nil => .nil
  | .site start shape inside after =>
    .site (start.moved shift) (shape.moved shift) inside.moved after.moved
  | .within segments inside after => .within segments inside.moved after.moved
  | .function inside after => .function inside.moved after.moved

@[simp]
theorem append_moved (first second : Outline) :
    (first ++ second).moved shift = first.moved shift ++ second.moved shift := by
  change (first.append second).moved shift = (first.moved shift).append (second.moved shift)
  induction first with
  | nil => rfl
  | site start shape inside after _ inductionHypothesis =>
    rw [append, moved, moved, append, inductionHypothesis]
  | within segments inside after _ inductionHypothesis =>
    rw [append, moved, moved, append, inductionHypothesis]
  | function inside after _ inductionHypothesis =>
    rw [append, moved, moved, append, inductionHypothesis]

@[simp]
theorem single_moved (start : Position) (shape : Shape) (inside : Outline) :
    (single start shape inside).moved shift =
      single (start.moved shift) (shape.moved shift) (inside.moved shift) :=
  rfl

@[simp]
theorem contained_moved (container : Option String) (inside : Outline) :
    (contained container inside).moved shift = contained container (inside.moved shift) := by
  cases container <;> rfl

@[simp]
theorem inFunction_moved (inside : Outline) :
    (inFunction inside).moved shift = inFunction (inside.moved shift) :=
  rfl

@[simp]
theorem declaratorContainer_moved (target : Pattern) (value : Option Expr) :
    declaratorContainer (target.moved shift) (movedExpr? shift value) =
      declaratorContainer target value := by
  cases target <;> cases value with
  | none => rfl
  | some expr => cases expr <;> rfl

@[simp]
theorem pairContainer_moved (key : Key) (value : Expr) :
    pairContainer (key.moved shift) (value.moved shift) = pairContainer key value := by
  cases value with
  | object start entries => exact Key.propertyName?_moved shift key
  | _ => rfl

mutual

theorem ofExpr_moved : (expr : Expr) → ofExpr (expr.moved shift) = (ofExpr expr).moved shift
  | .name start word => rfl
  | .this start => rfl
  | .text start value => rfl
  | .member start object key => by
    simp [Expr.moved, ofExpr, Shape.ofExpr, ofExpr_moved object, ofKey_moved key]
  | .superMember start key => by
    simp [Expr.moved, ofExpr, ofKey_moved key]
  | .paren start inner => by
    simp [Expr.moved, ofExpr, ofExpr_moved inner]
  | .function start params body => by
    simp [Expr.moved, ofExpr, ofPatterns_moved params, ofStatements_moved body]
  | .arrow start params body => by
    simp [Expr.moved, ofExpr, ofPatterns_moved params, ofParts_moved body]
  | .class start members base => by
    simp [Expr.moved, ofExpr, ofMembers_moved members, ofExpr?_moved base]
  | .object start entries => by
    simp [Expr.moved, ofExpr, ofEntries_moved entries]
  | .call start callee arguments => by
    simp [Expr.moved, ofExpr, ofExpr_moved callee, ofParts_moved arguments]
  | .new start callee arguments => by
    simp [Expr.moved, ofExpr, ofExpr_moved callee, ofParts_moved arguments]
  | .assign start target value => by
    have shape := Shape.ofExpr_moved shift (.assign start target value)
    simp only [Expr.moved] at shape
    simp [Expr.moved, ofExpr, shape, moved, ofTarget_moved target, ofExpr_moved value]
  | .array start elements => by
    simp [Expr.moved, ofExpr, ofParts_moved elements]
  | .compound start parts => by
    simp [Expr.moved, ofExpr, ofParts_moved parts]

theorem ofExpr?_moved : (expr : Option Expr) →
    ofExpr? (movedExpr? shift expr) = (ofExpr? expr).moved shift
  | none => rfl
  | some expr => ofExpr_moved expr

theorem ofKey_moved : (key : Key) → ofKey (key.moved shift) = (ofKey key).moved shift
  | .plain _ => rfl
  | .computed expr => ofExpr_moved expr

theorem ofTarget_moved : (target : Pattern) →
    ofTarget (target.moved shift) = (ofTarget target).moved shift
  | .expr expr => by
    have whole := ofExpr_moved expr
    -- What is assigned to is no site itself, so of a member only its inside counts.
    cases expr with
    | member start object key => exact (Outline.site.inj whole).2.2.1
    | superMember start key => exact (Outline.site.inj whole).2.2.1
    | paren start inner => exact (Outline.site.inj whole).2.2.1
    | _ => exact whole
  | .name _ => rfl
  | .default inner value => by
    simp [Pattern.moved, ofTarget, ofTarget_moved inner, ofExpr_moved value]
  | .rest inner => ofTarget_moved inner
  | .group parts => ofPatterns_moved parts

theorem ofPattern_moved : (pattern : Pattern) →
    ofPattern (pattern.moved shift) = (ofPattern pattern).moved shift
  | .name _ => rfl
  | .default inner value => by
    simp [Pattern.moved, ofPattern, ofPattern_moved inner, ofExpr_moved value]
  | .rest inner => ofPattern_moved inner
  | .group parts => ofPatterns_moved parts
  | .expr expr => ofExpr_moved expr

theorem ofPatterns_moved : (patterns : List Pattern) →
    ofPatterns (movedPatterns shift patterns) = (ofPatterns patterns).moved shift
  | [] => rfl
  | head :: rest => by
    simp [movedPatterns, ofPatterns, ofPattern_moved head, ofPatterns_moved rest]

theorem ofEntry_moved : (entry : Entry) →
    ofEntry (entry.moved shift) = (ofEntry entry).moved shift
  | .pair start key value => by
    simp [Entry.moved, ofEntry, Shape.ofEntry, ofKey_moved key, ofExpr_moved value]
  | .method start key params body => by
    simp [Entry.moved, ofEntry, Shape.ofEntry, ofKey_moved key, ofPatterns_moved params,
      ofStatements_moved body]
  | .accessor start key params body => by
    simp [Entry.moved, ofEntry, Shape.ofEntry, ofKey_moved key, ofPatterns_moved params,
      ofStatements_moved body]
  | .shorthand start word value => by
    simp [Entry.moved, ofEntry, Shape.ofEntry, ofExpr?_moved value]
  | .spread expr => ofExpr_moved expr

theorem ofEntries_moved : (entries : List Entry) →
    ofEntries (movedEntries shift entries) = (ofEntries entries).moved shift
  | [] => rfl
  | head :: rest => by
    simp [movedEntries, ofEntries, ofEntry_moved head, ofEntries_moved rest]

theorem ofMember_moved : (member : Member) →
    ofMember (member.moved shift) = (ofMember member).moved shift
  | .method start key isStatic params body => by
    simp [Member.moved, ofMember, Shape.ofMember, ofKey_moved key, ofPatterns_moved params,
      ofStatements_moved body]
  | .accessor start key isStatic params body => by
    simp [Member.moved, ofMember, Shape.ofMember, ofKey_moved key, ofPatterns_moved params,
      ofStatements_moved body]
  | .field start key isStatic value => by
    simp [Member.moved, ofMember, Shape.ofMember, ofKey_moved key, ofExpr?_moved value]
  | .other start parts => by
    simp [Member.moved, ofMember, ofParts_moved parts]

theorem ofMembers_moved : (members : List Member) →
    ofMembers (movedMembers shift members) = (ofMembers members).moved shift
  | [] => rfl
  | head :: rest => by
    simp [movedMembers, ofMembers, ofMember_moved head, ofMembers_moved rest]

theorem ofDeclarator_moved : (declarator : Declarator) →
    ofDeclarator (declarator.moved shift) = (ofDeclarator declarator).moved shift
  | .mk start target value => by
    have shape := Shape.ofDeclarator_moved shift (.mk start target value)
    simp only [Declarator.moved] at shape
    simp [Declarator.moved, ofDeclarator, shape, ofPattern_moved target, ofExpr?_moved value]

theorem ofDeclarators_moved : (declarators : List Declarator) →
    ofDeclarators (movedDeclarators shift declarators) = (ofDeclarators declarators).moved shift
  | [] => rfl
  | head :: rest => by
    simp [movedDeclarators, ofDeclarators, ofDeclarator_moved head, ofDeclarators_moved rest]

theorem ofStatement_moved : (statement : Statement) →
    ofStatement (statement.moved shift) = (ofStatement statement).moved shift
  | .expression start expr => by
    simp [Statement.moved, ofStatement, Shape.ofStatement, ofExpr_moved expr]
  | .declaration start declarators => by
    have shape := Shape.ofStatement_moved shift (.declaration start declarators)
    simp only [Statement.moved] at shape
    simp [Statement.moved, ofStatement, shape, ofDeclarators_moved declarators]
  | .function start word params body => by
    simp [Statement.moved, ofStatement, Shape.ofStatement, ofPatterns_moved params,
      ofStatements_moved body]
  | .class start word members base => by
    simp [Statement.moved, ofStatement, Shape.ofStatement, moved, ofMembers_moved members,
      ofExpr?_moved base]
  | .compound start parts => by
    simp [Statement.moved, ofStatement, ofParts_moved parts]

theorem ofStatements_moved : (statements : List Statement) →
    ofStatements (movedStatements shift statements) = (ofStatements statements).moved shift
  | [] => rfl
  | head :: rest => by
    simp [movedStatements, ofStatements, ofStatement_moved head, ofStatements_moved rest]

theorem ofPart_moved : (part : Part) → ofPart (part.moved shift) = (ofPart part).moved shift
  | .expr expr => ofExpr_moved expr
  | .spread expr => ofExpr_moved expr
  | .statement statement => ofStatement_moved statement
  | .pattern pattern => ofPattern_moved pattern
  | .declarator declarator => ofDeclarator_moved declarator
  | .function params body => by
    simp [Part.moved, ofPart, ofPatterns_moved params, ofStatements_moved body]

theorem ofParts_moved : (parts : List Part) →
    ofParts (movedParts shift parts) = (ofParts parts).moved shift
  | [] => rfl
  | head :: rest => by
    simp [movedParts, ofParts, ofPart_moved head, ofParts_moved rest]

end

theorem ofDeclaration_moved (declaration : Statement) :
    ofDeclaration (declaration.moved shift) = (ofDeclaration declaration).moved shift := by
  cases declaration with
  | expression start expr => exact ofExpr_moved shift expr
  | declaration start declarators => exact ofDeclarators_moved shift declarators
  | function start word params body =>
    simp [Statement.moved, ofDeclaration, ofPatterns_moved, ofStatements_moved]
  | «class» start word members base =>
    simp [Statement.moved, ofDeclaration, moved, ofMembers_moved, ofExpr?_moved]
  | compound start parts => exact ofParts_moved shift parts

theorem ofItem_moved (item : Item) : ofItem (item.moved shift) = (ofItem item).moved shift := by
  have shape := Shape.ofItem_moved shift item
  cases item with
  | statement inner => exact ofStatement_moved shift inner
  | exported start declaration =>
    simp only [Item.moved] at shape
    simp [Item.moved, ofItem, shape, ofDeclaration_moved]
  | defaultFunction start word params body =>
    simp only [Item.moved] at shape
    simp [Item.moved, ofItem, shape, ofPatterns_moved, ofStatements_moved]
  | defaultClass start word members base =>
    simp only [Item.moved] at shape
    simp [Item.moved, ofItem, shape, ofMembers_moved, ofExpr?_moved]
  | other start parts => simp [Item.moved, ofItem, ofParts_moved]

/-- The outline of a program moves with the program. -/
theorem ofProgram_moved (program : Program) :
    ofProgram (program.moved shift) = (ofProgram program).moved shift := by
  obtain ⟨items⟩ := program
  change ofItems (items.map (Item.moved shift)) = (ofItems items).moved shift
  induction items with
  | nil => rfl
  | cons head rest inductionHypothesis =>
    rw [List.map_cons, ofItems, ofItems, inductionHypothesis, ofItem_moved, append_moved]

end Outline

end

end DocEntities
