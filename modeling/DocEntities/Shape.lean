/-
This file says what the shape of the documented code tells about an entity: which name it
binds, where the value is attached, and what sort of value it is. Identity and inheritance
are told only at the top level; whether the entity is an instance member is told anywhere.

`Base.extend({...})` defines a class. The properties of its object are members of the
instances of that class, which their own place in the code does not show, so the shape of the
class also gives a record for each of them, to be used when a comment on the property is met.
-/

import DocEntities.Evidence
import DocEntities.Scope
import DocEntities.Script.Tree

namespace DocEntities

open Script

/-- What a value tells of the entity that holds it. -/
inductive Value where
  /-- A function with parameters of these names. -/
  | function (params : List String)
  /-- A class, and the path of its base. -/
  | class (base : Option String)
  /-- A call of `extend`, the path it is called on, and the named properties of the object it
  is given, with the offsets at which they start. -/
  | extension (base : Option String) (members : List (Nat × String))
  /-- An object made by the constructor of this name. -/
  | made (constructor : String)
  /-- Any other value, or none. -/
  | plain
  deriving DecidableEq, Repr, Inhabited

/-- The forms of code that tell something about the entity they define. -/
inductive Shape where
  /-- A member of an object, given by the path of the object and the name of the member. -/
  | member (object : Option String) (name : Option String) (value : Value)
  /-- A name, if there is a single one. -/
  | binding (name : Option String) (value : Value)
  /-- A property of an object literal. -/
  | property (name : Option String) (value : Value)
  /-- A member of a class, with the kind it has by its form. -/
  | classMember (name : Option String) (isStatic : Bool) (kind : Option Kind) (value : Value)
  | other
  deriving DecidableEq, Repr, Inhabited

/-! ### Shapes of code -/

/-- The names that parameters bind. -/
def paramNames (params : List Pattern) : List String :=
  params.filterMap Pattern.paramName?

/-- Where an entry of an object literal starts, and its name. -/
def Script.Entry.member? : Entry → Option (Nat × String)
  | .pair start key _ | .method start key _ _ | .accessor start key _ _ =>
    key.propertyName?.map (fun name => (start.offset, name))
  | .shorthand start name _ => some (start.offset, name)
  | .spread _ => none

/-- The named properties of the object that is the first argument of a call. -/
def extensionMembers : List Part → List (Nat × String)
  | .expr argument :: _ =>
    match argument.unparen with
    | .object _ entries => entries.filterMap Script.Entry.member?
    | _ => []
  | _ => []

/-- The name of the method that defines a class. -/
def extendMethod : String := "extend"

/-- What an expression tells of the entity that holds its value. -/
def Value.ofExpr (expr : Expr) : Value :=
  match expr.unparen with
  | .function _ params _ => .function (paramNames params)
  | .arrow _ params _ => .function (paramNames params)
  | .class _ _ base => .class (base.bind Expr.path?)
  | .call _ (.member _ object key) arguments =>
    if key.memberName? = some extendMethod then
      .extension object.path? (extensionMembers arguments)
    else .plain
  | .new _ (.name _ maker) _ => .made maker
  | _ => .plain

/-- What an expression that may be missing tells. -/
def Value.ofExpr? : Option Expr → Value
  | none => .plain
  | some expr => .ofExpr expr

namespace Shape

/-- The shape of an expression. -/
def ofExpr : Expr → Shape
  | .assign _ (.expr (.member _ object key)) value =>
    .member object.path? key.memberName? (.ofExpr value)
  | .assign _ (.name name) value => .binding (some name) (.ofExpr value)
  | .member _ object key => .member object.path? key.memberName? .plain
  | .name _ name => .binding (some name) .plain
  | _ => .other

/-- The shape of a variable. -/
def ofDeclarator : Declarator → Shape
  | .mk _ (.name name) value => .binding (some name) (.ofExpr? value)
  | .mk _ _ value => .binding none (.ofExpr? value)

/-- The shape of a statement. Of several variables the first counts. -/
def ofStatement : Statement → Shape
  | .expression _ expr => ofExpr expr
  | .declaration _ (declarator :: _) => ofDeclarator declarator
  | .declaration _ [] => .other
  | .function _ name params _ => .binding (some name) (.function (paramNames params))
  | .class _ name _ base => .binding (some name) (.class (base.bind Expr.path?))
  | .compound _ _ => .other

/-- The shape of an entry of an object literal. -/
def ofEntry : Entry → Shape
  | .pair _ key value => .property key.propertyName? (.ofExpr value)
  | .method _ key params _ => .property key.propertyName? (.function (paramNames params))
  | .accessor _ key _ _ => .property key.propertyName? .plain
  | .shorthand _ name _ => .property (some name) .plain
  | .spread _ => .other

/-- The shape of a member of a class. -/
def ofMember : Member → Shape
  | .method _ key isStatic params _ =>
    .classMember key.propertyName? isStatic none (.function (paramNames params))
  | .accessor _ key isStatic _ _ => .classMember key.propertyName? isStatic (some .member) .plain
  | .field _ key isStatic value =>
    .classMember key.propertyName? isStatic (some .member) (.ofExpr? value)
  | .other _ _ => .other

/-- The shape of what stands at the top level of a module. -/
def ofItem : Item → Shape
  | .statement statement => ofStatement statement
  | .exported _ declaration => ofStatement declaration
  | .defaultFunction _ (some name) params _ =>
    .binding (some name) (.function (paramNames params))
  | .defaultClass _ (some name) _ base => .binding (some name) (.class (base.bind Expr.path?))
  | _ => .other

end Shape

/-! ### Descriptions -/

/-- What a shape tells: evidence on the entity itself, and records for the properties of an
object inside it, by the offset at which the property starts. -/
structure Description where
  evidence : Evidence := {}
  records : List (Nat × Evidence) := []
  deriving DecidableEq, Repr, Inhabited

/-- Constructors of values that are documented as plain members. -/
def valueConstructors : List String :=
  ["String", "Object", "Array", "Date", "Number", "Boolean", "RegExp"]

/-- The record for a property of the object that defines the class `owner`. -/
def memberRecord (owner name : String) : Evidence :=
  { codeId := some (owner ++ "#" ++ name)
    name := some name
    isInstanceMember := some true
    container := some owner }

/-- Adds what a value tells to what is known of its holder. -/
def Value.describe (value : Value) (topLevel : Bool) (utilityNamespaces : List String)
    (holder : Evidence) : Description :=
  match value with
  | .function params =>
    { evidence := { holder with kind := some .function, params := params.map Param.named } }
  | .class base =>
    { evidence :=
        { holder with
          kind := some .classKind
          inheritsFrom :=
            if topLevel then base.map Namepath.ofContainer else holder.inheritsFrom } }
  | .extension base members =>
    if (base.map utilityNamespaces.contains).getD false then { evidence := holder }
    else
      { evidence :=
          { holder with
            kind := some .classKind
            inheritsFrom :=
              if topLevel then base.map Namepath.ofContainer else holder.inheritsFrom }
        records :=
          match holder.codeId with
          | none => []
          | some id => members.map (fun member => (member.1, memberRecord id member.2)) }
  | .made constructor =>
    if topLevel && valueConstructors.contains constructor then
      { evidence := { holder with kind := some .member } }
    else if topLevel && constructor == "Function" then
      { evidence := { holder with kind := some .function } }
    else { evidence := holder }
  | .plain => { evidence := holder }

/-- A flag that is known only if it holds. -/
def onlyTrue (holds : Bool) : Option Bool :=
  if holds then some true else none

namespace Shape

/-- The evidence on a member of an object, its value left aside. -/
def memberEvidence (scope : Scope) (object name : Option String) : Evidence :=
  match object, name with
  | some path, some last =>
    let full := path ++ "." ++ last
    { name := name
      isInstanceMember := onlyTrue (Namepath.isInstance (Namepath.ofPath full))
      container :=
        if scope.isTopLevel then some (Namepath.ofContainer (scope.qualify path)) else none
      codeId := if scope.isTopLevel then some (Namepath.ofPath (scope.qualify full)) else none }
  | _, _ => { name := name }

/-- The evidence on a name. -/
def bindingEvidence (scope : Scope) (name : Option String) : Evidence :=
  { name := name, codeId := if scope.isTopLevel then name else none }

/-- The evidence on a property of an object literal, its value left aside. -/
def propertyEvidence (scope : Scope) (name : Option String) : Evidence :=
  match name with
  | none => {}
  | some key =>
    let container := scope.path
    if container.isEmpty then { name := name }
    else
      let id := Namepath.ofPath (scope.qualify key)
      { name := name
        isInstanceMember := onlyTrue (Namepath.isInstance id)
        codeId := if scope.isTopLevel then some id else none
        container := if scope.isTopLevel then some (Namepath.ofContainer container) else none }

/-- The evidence on a member of a class that has a name, its value left aside. -/
def classMemberEvidence (scope : Scope) (name : String) (isStatic : Bool)
    (kind : Option Kind) : Evidence :=
  let container := scope.path
  let path := if isStatic then name else "prototype." ++ name
  let placed := scope.isTopLevel && !container.isEmpty
  { kind := kind
    name := some name
    isInstanceMember := onlyTrue (!isStatic)
    codeId := if placed then some (Namepath.ofPath (scope.qualify path)) else none
    container := if placed then some (Namepath.ofContainer container) else none }

/-- What a shape tells in a scope. -/
def describe (shape : Shape) (scope : Scope) (utilityNamespaces : List String) : Description :=
  match shape with
  | .member object name value =>
    value.describe scope.isTopLevel utilityNamespaces (memberEvidence scope object name)
  | .binding name value =>
    value.describe scope.isTopLevel utilityNamespaces (bindingEvidence scope name)
  | .property name value =>
    value.describe scope.isTopLevel utilityNamespaces (propertyEvidence scope name)
  | .classMember (some name) isStatic kind value =>
    value.describe scope.isTopLevel utilityNamespaces
      (classMemberEvidence scope name isStatic kind)
  | .classMember none _ kind _ => { evidence := { kind := kind } }
  | .other => {}

end Shape

end DocEntities
