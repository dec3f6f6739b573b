/-
This file holds the syntax tree of a script, reduced to what matters for documentation. Forms
that say something about the entity they define have constructors of their own; all other
forms are compounds of their parts, in the order in which the parts are visited. Nodes that a
comment can document carry the place where they start.
-/

import DocEntities.Script.Position

namespace DocEntities.Script

mutual

/-- An expression. -/
inductive Expr where
  | name (start : Position) (name : String)
  | this (start : Position)
  /-- A string literal; it has no value if it holds half of a surrogate pair. -/
  | text (start : Position) (value : Option String)
  /-- `object.key` or `object[key]` -/
  | member (start : Position) (object : Expr) (key : Key)
  /-- `super.key` or `super[key]` -/
  | superMember (start : Position) (key : Key)
  | paren (start : Position) (inner : Expr)
  | function (start : Position) (params : List Pattern) (body : List Statement)
  | arrow (start : Position) (params : List Pattern) (body : List Part)
  | class (start : Position) (members : List Member) (base : Option Expr)
  | object (start : Position) (entries : List Entry)
  | call (start : Position) (callee : Expr) (arguments : List Part)
  | new (start : Position) (callee : Expr) (arguments : List Part)
  | assign (start : Position) (target : Pattern) (value : Expr)
  | array (start : Position) (elements : List Part)
  /-- Any other expression. -/
  | compound (start : Position) (parts : List Part)

/-- The key of a property, of a class member or of a member access. -/
inductive Key where
  /-- A key that is written out; it has no name if it is private or no text stands for it. -/
  | plain (name : Option String)
  | computed (expr : Expr)

/-- What a declaration, a parameter or an assignment binds. -/
inductive Pattern where
  | name (name : String)
  | default (pattern : Pattern) (value : Expr)
  | rest (pattern : Pattern)
  /-- The parts of an array or object pattern, computed keys included. -/
  | group (parts : List Pattern)
  /-- An expression that is assigned to, or a computed key. -/
  | expr (expr : Expr)

/-- An entry of an object literal. -/
inductive Entry where
  | pair (start : Position) (key : Key) (value : Expr)
  | method (start : Position) (key : Key) (params : List Pattern) (body : List Statement)
  /-- A getter or a setter. -/
  | accessor (start : Position) (key : Key) (params : List Pattern) (body : List Statement)
  /-- A name alone; a default value only makes sense where the object is a pattern. -/
  | shorthand (start : Position) (name : String) (value : Option Expr)
  | spread (expr : Expr)

/-- A member of a class body. -/
inductive Member where
  | method (start : Position) (key : Key) (isStatic : Bool) (params : List Pattern)
      (body : List Statement)
  /-- A getter or a setter. -/
  | accessor (start : Position) (key : Key) (isStatic : Bool) (params : List Pattern)
      (body : List Statement)
  | field (start : Position) (key : Key) (isStatic : Bool) (value : Option Expr)
  /-- The constructor, a private member, a static block or a lone semicolon. -/
  | other (start : Position) (parts : List Part)

/-- One variable of a declaration. -/
inductive Declarator where
  | mk (start : Position) (target : Pattern) (value : Option Expr)

/-- A statement. -/
inductive Statement where
  | expression (start : Position) (expr : Expr)
  | declaration (start : Position) (declarators : List Declarator)
  | function (start : Position) (name : String) (params : List Pattern) (body : List Statement)
  | class (start : Position) (name : String) (members : List Member) (base : Option Expr)
  /-- Any other statement. -/
  | compound (start : Position) (parts : List Part)

/-- A part of a compound. -/
inductive Part where
  | expr (expr : Expr)
  | spread (expr : Expr)
  | statement (statement : Statement)
  | pattern (pattern : Pattern)
  | declarator (declarator : Declarator)
  | function (params : List Pattern) (body : List Statement)

end

instance : Inhabited Expr :=
  ⟨.this ⟨0, 1⟩⟩

/-- What stands at the top level of a script or a module. -/
inductive Item where
  | statement (statement : Statement)
  /-- An exported declaration. -/
  | exported (start : Position) (declaration : Statement)
  /-- `export default` of a function, which may have a name. -/
  | defaultFunction (start : Position) (name : Option String) (params : List Pattern)
      (body : List Statement)
  /-- `export default` of a class, which may have a name. -/
  | defaultClass (start : Position) (name : Option String) (members : List Member)
      (base : Option Expr)
  /-- Any other import or export. -/
  | other (start : Position) (parts : List Part)

/-- A script or a module. -/
structure Program where
  items : List Item

/-! ### Starts and names -/

/-- Where an expression starts. -/
def Expr.start : Expr → Position
  | .name start _ | .this start | .text start _ | .member start _ _ | .superMember start _
  | .paren start _ | .function start _ _ | .arrow start _ _ | .class start _ _
  | .object start _ | .call start _ _ | .new start _ _ | .assign start _ _ | .array start _
  | .compound start _ => start

/-- The name of a key of a property or a class member. A computed key has none. -/
def Key.propertyName? : Key → Option String
  | .plain name => name
  | .computed _ => none

/-- The name of a key of a member access. A computed key has one if it is a string literal. -/
def Key.memberName? : Key → Option String
  | .plain name => name
  | .computed (.text _ value) => value
  | .computed _ => none

/-- The expression inside all parentheses. -/
def Expr.unparen : Expr → Expr
  | .paren _ inner => inner.unparen
  | expr => expr

/-- The dotted path of a chain of members: `a.b["c"].d` gives `a.b.c.d`. A chain that does not
start at a name or at `this`, or that has a key without a name, has none. -/
def Expr.path? : Expr → Option String
  | .name _ word => some word
  | .this _ => some "this"
  | .member _ owner key =>
    match owner.path?, key.memberName? with
    | some path, some last => some (path ++ "." ++ last)
    | _, _ => none
  | .paren _ inner => inner.path?
  | _ => none

/-- The name that a parameter binds, if it is a single one. -/
def Pattern.paramName? : Pattern → Option String
  | .name word => some word
  | .default inner _ => inner.paramName?
  | .rest inner => inner.paramName?
  | .group _ => none
  | .expr _ => none

/-- The path that an assignment target adds to the containers of its value. -/
def Pattern.targetPath? : Pattern → Option String
  | .name word => some word
  | .expr (.member start object key) => (Expr.member start object key).path?
  | _ => none

end DocEntities.Script
