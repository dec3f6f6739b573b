/-
This file reduces a program to its outline: the sites that a comment can document, in the
order in which they are visited, with the scopes around them. A site is a statement, a
declaration of a module, a variable, a property, a class member or an expression. Its inside
is visited after the site itself and before what comes after it.

The order is that of the source with two exceptions that the tree already makes or that are
made here: the members of a class come before its base, and the condition of a `do` loop
before its body.
-/

import DocEntities.Shape

namespace DocEntities

open Script

/-- The sites of a program with the scopes around them. -/
inductive Outline where
  | nil
  /-- A site, the sites inside it, and the sites after it. -/
  | site (start : Position) (shape : Shape) (inside after : Outline)
  /-- Sites inside containers, and the sites after them. -/
  | within (segments : List String) (inside after : Outline)
  /-- Sites inside a function, and the sites after it. -/
  | function (inside after : Outline)
  deriving Inhabited

namespace Outline

/-- One outline after another. -/
def append : Outline → Outline → Outline
  | .nil, later => later
  | .site start shape inside after, later => .site start shape inside (after.append later)
  | .within segments inside after, later => .within segments inside (after.append later)
  | .function inside after, later => .function inside (after.append later)

instance : Append Outline :=
  ⟨append⟩

/-- A single site. -/
def single (start : Position) (shape : Shape) (inside : Outline) : Outline :=
  .site start shape inside .nil

/-- An outline inside a container, if there is one. -/
def contained (container : Option String) (inside : Outline) : Outline :=
  match container with
  | none => inside
  | some segment => .within [segment] inside .nil

/-- An outline inside a function. -/
def inFunction (inside : Outline) : Outline :=
  .function inside .nil

/-- The segments of a path that are not empty. -/
def pathSegments (path : Option String) : List String :=
  match path with
  | none => []
  | some found => (Namepath.segments found).filter (fun segment => !segment.isEmpty)

/-- The container that a variable is for its value: a name that holds an object literal or a
class. -/
def declaratorContainer : Pattern → Option Expr → Option String
  | .name name, some (.object _ _) => some name
  | .name name, some (.class _ _ _) => some name
  | _, _ => none

/-- The container that a property is for its value: a name that holds an object literal. -/
def pairContainer (key : Key) : Expr → Option String
  | .object _ _ => key.propertyName?
  | _ => none

mutual

/-- The outline of an expression. -/
def ofExpr : Expr → Outline
  | .name start word => single start (.ofExpr (.name start word)) .nil
  | .this start => single start .other .nil
  | .text start _ => single start .other .nil
  | .member start object key =>
    single start (.ofExpr (.member start object key)) (ofExpr object ++ ofKey key)
  | .superMember start key => single start .other (ofKey key)
  | .paren start inner => single start .other (ofExpr inner)
  | .function start params body =>
    single start .other (inFunction (ofPatterns params ++ ofStatements body))
  | .arrow start params body =>
    single start .other (inFunction (ofPatterns params ++ ofParts body))
  | .class start members base => single start .other (ofMembers members ++ ofExpr? base)
  | .object start entries => single start .other (ofEntries entries)
  | .call start callee arguments => single start .other (ofExpr callee ++ ofParts arguments)
  | .new start callee arguments => single start .other (ofExpr callee ++ ofParts arguments)
  | .assign start target value =>
    single start (.ofExpr (.assign start target value))
      (.within (pathSegments target.targetPath?) (ofTarget target ++ ofExpr value) .nil)
  | .array start elements => single start .other (ofParts elements)
  | .compound start parts => single start .other (ofParts parts)

/-- The outline of an expression that may be missing. -/
def ofExpr? : Option Expr → Outline
  | none => .nil
  | some expr => ofExpr expr

/-- The outline of a key. -/
def ofKey : Key → Outline
  | .plain _ => .nil
  | .computed expr => ofExpr expr

/-- The outline of what an assignment assigns to, which is no site itself. -/
def ofTarget : Pattern → Outline
  | .expr (.member _ object key) => ofExpr object ++ ofKey key
  | .expr (.paren _ inner) => ofExpr inner
  | .expr (.superMember _ key) => ofKey key
  | .expr other => ofExpr other
  | .name _ => .nil
  | .default inner value => ofTarget inner ++ ofExpr value
  | .rest inner => ofTarget inner
  | .group parts => ofPatterns parts

/-- The outline of a pattern. -/
def ofPattern : Pattern → Outline
  | .name _ => .nil
  | .default inner value => ofPattern inner ++ ofExpr value
  | .rest inner => ofPattern inner
  | .group parts => ofPatterns parts
  | .expr expr => ofExpr expr

/-- The outline of patterns. -/
def ofPatterns : List Pattern → Outline
  | [] => .nil
  | head :: rest => ofPattern head ++ ofPatterns rest

/-- The outline of an entry of an object literal. The key of a getter or a setter counts as
part of its function. -/
def ofEntry : Entry → Outline
  | .pair start key value =>
    single start (.ofEntry (.pair start key value))
      (contained (pairContainer key value) (ofKey key ++ ofExpr value))
  | .method start key params body =>
    single start (.ofEntry (.method start key params body))
      (ofKey key ++ inFunction (ofPatterns params ++ ofStatements body))
  | .accessor start key params body =>
    single start (.ofEntry (.accessor start key params body))
      (inFunction (ofKey key ++ ofPatterns params ++ ofStatements body))
  | .shorthand start word value =>
    single start (.ofEntry (.shorthand start word value)) (ofExpr? value)
  | .spread expr => ofExpr expr

/-- The outline of the entries of an object literal. -/
def ofEntries : List Entry → Outline
  | [] => .nil
  | head :: rest => ofEntry head ++ ofEntries rest

/-- The outline of a member of a class. -/
def ofMember : Member → Outline
  | .method start key isStatic params body =>
    single start (.ofMember (.method start key isStatic params body))
      (ofKey key ++ inFunction (ofPatterns params ++ ofStatements body))
  | .accessor start key isStatic params body =>
    single start (.ofMember (.accessor start key isStatic params body))
      (ofKey key ++ inFunction (ofPatterns params ++ ofStatements body))
  | .field start key isStatic value =>
    single start (.ofMember (.field start key isStatic value)) (ofKey key ++ ofExpr? value)
  | .other start parts => single start .other (ofParts parts)

/-- The outline of the members of a class. -/
def ofMembers : List Member → Outline
  | [] => .nil
  | head :: rest => ofMember head ++ ofMembers rest

/-- The outline of a variable. -/
def ofDeclarator : Declarator → Outline
  | .mk start target value =>
    single start (.ofDeclarator (.mk start target value))
      (contained (declaratorContainer target value) (ofPattern target ++ ofExpr? value))

/-- The outline of variables. -/
def ofDeclarators : List Declarator → Outline
  | [] => .nil
  | head :: rest => ofDeclarator head ++ ofDeclarators rest

/-- The outline of a statement. -/
def ofStatement : Statement → Outline
  | .expression start expr => single start (.ofStatement (.expression start expr)) (ofExpr expr)
  | .declaration start declarators =>
    single start (.ofStatement (.declaration start declarators)) (ofDeclarators declarators)
  | .function start word params body =>
    single start (.ofStatement (.function start word params body))
      (inFunction (ofPatterns params ++ ofStatements body))
  | .class start word members base =>
    single start (.ofStatement (.class start word members base))
      (.within [word] (ofMembers members ++ ofExpr? base) .nil)
  | .compound start parts => single start .other (ofParts parts)

/-- The outline of statements. -/
def ofStatements : List Statement → Outline
  | [] => .nil
  | head :: rest => ofStatement head ++ ofStatements rest

/-- The outline of a part. -/
def ofPart : Part → Outline
  | .expr expr => ofExpr expr
  | .spread expr => ofExpr expr
  | .statement statement => ofStatement statement
  | .pattern pattern => ofPattern pattern
  | .declarator declarator => ofDeclarator declarator
  | .function params body => inFunction (ofPatterns params ++ ofStatements body)

/-- The outline of parts. -/
def ofParts : List Part → Outline
  | [] => .nil
  | head :: rest => ofPart head ++ ofParts rest

end

/-- The outline of a declaration below `export`, which is no site itself. -/
def ofDeclaration : Statement → Outline
  | .expression _ expr => ofExpr expr
  | .declaration _ declarators => ofDeclarators declarators
  | .function _ _ params body => inFunction (ofPatterns params ++ ofStatements body)
  | .class _ word members base => .within [word] (ofMembers members ++ ofExpr? base) .nil
  | .compound _ parts => ofParts parts

/-- The outline of what stands at the top level of a module. -/
def ofItem : Item → Outline
  | .statement statement => ofStatement statement
  | .exported start declaration =>
    single start (.ofItem (.exported start declaration)) (ofDeclaration declaration)
  | .defaultFunction start word params body =>
    single start (.ofItem (.defaultFunction start word params body))
      (inFunction (ofPatterns params ++ ofStatements body))
  | .defaultClass start word members base =>
    single start (.ofItem (.defaultClass start word members base))
      (contained word (ofMembers members ++ ofExpr? base))
  | .other start parts => single start .other (ofParts parts)

/-- The outline of items, one after the other. -/
def ofItems : List Item → Outline
  | [] => .nil
  | head :: rest => ofItem head ++ ofItems rest

/-- The outline of a program. -/
def ofProgram (program : Program) : Outline :=
  ofItems program.items

end Outline

end DocEntities
