/-
This file lays out the grammar of scripts. The constructs of the grammar contain each other
without end, so each parser is written against a record of parsers for what may stand inside
it, and the record of one level is made from the record of the level below. A parser turns to
the level below only after it has taken a token, so as many levels as the source has
characters, and a few more, read every source to its end.

The file also holds what many constructs share: keys, and the reading of an expression as a
pattern, for where it turns out only later that a pattern was meant.
-/

import DocEntities.Decimal
import DocEntities.Script.Cursor
import DocEntities.Script.Tree

namespace DocEntities.Script

/-- How the word `await` is read. -/
inductive AwaitWord where
  | name
  | operator
  /-- As an operator if an operand follows: outside every function. -/
  | either
  deriving DecidableEq, Repr

/-- What the surroundings of a construct change in how it is read. -/
structure Context where
  /-- Whether `in` is an operator. -/
  inOperator : Bool := true
  /-- Whether `yield` is an operator. -/
  yieldOperator : Bool := false
  awaitWord : AwaitWord := .name
  deriving DecidableEq, Repr

namespace Context

/-- Inside brackets of any sort, where `in` is an operator. -/
def inner (context : Context) : Context :=
  { context with inOperator := true }

/-- Inside the head of a loop, where `in` is none. -/
def loopHead (context : Context) : Context :=
  { context with inOperator := false }

/-- Inside a function. -/
def ofFunction (isAsync isGenerator : Bool) : Context :=
  { yieldOperator := isGenerator, awaitWord := if isAsync then .operator else .name }

end Context

/-- The parsers for what may stand inside a construct. -/
structure Grammar where
  assignment : Context → Parser Expr
  expression : Context → Parser Expr
  /-- An operand of an operator. -/
  unary : Context → Parser Expr
  /-- Binary operators of a precedence and above, behind a left side. -/
  binary : Context → Nat → Expr → Parser Expr
  /-- Accesses and calls behind an expression; whether calls are allowed, and whether the chain
  is an optional one. -/
  subscripts : Context → Bool → Bool → Expr → Parser Expr
  /-- An expression with accesses behind it, and with calls if they are allowed. -/
  chain : Context → Bool → Parser Expr
  /-- More expressions of a sequence. -/
  sequence : Context → Parser (List Part)
  /-- Arguments up to the closing parenthesis. -/
  arguments : Context → Parser (List Part)
  /-- What stands in parentheses, and whether nothing follows the last comma. -/
  group : Context → Parser (List Part × Bool)
  /-- Array elements up to the closing bracket. -/
  elements : Context → Parser (List Part)
  /-- Object entries up to the closing brace. -/
  entries : Context → Parser (List Entry)
  /-- Class members up to the closing brace. -/
  members : Context → Parser (List Member)
  /-- The substitutions of a template, from the end of the current token on; whether a tag
  stands before it. -/
  template : Context → Bool → Parser (List Part)
  /-- The expressions of an element, which starts at the given place. -/
  element : Context → Spot → Parser (List Part × Spot)
  /-- The expressions of attributes up to the end of the tag, and whether the element ends
  there. -/
  attributes : Context → Spot → Parser (List Part × Bool × Spot)
  /-- The expressions of what stands between two tags of a name, the closing one included. -/
  children : Context → List Char → Spot → Parser (List Part × Spot)
  pattern : Context → Parser Pattern
  /-- Elements of an array pattern up to the closing bracket. -/
  patternElements : Context → Parser (List Pattern)
  /-- Entries of an object pattern up to the closing brace. -/
  patternEntries : Context → Parser (List Pattern)
  /-- Parameters up to the closing parenthesis. -/
  params : Context → Parser (List Pattern)
  statement : Context → Parser Statement
  /-- Statements up to the closing brace. -/
  statements : Context → Parser (List Statement)
  /-- More variables of a declaration. -/
  declarators : Context → Parser (List Declarator)
  /-- Cases of a switch up to the closing brace. -/
  cases : Context → Parser (List Part)
  /-- Statements up to the next case. -/
  caseBody : Context → Parser (List Part)
  /-- Names of an import or export up to the closing brace. -/
  specifiers : Parser Unit
  /-- Items up to the end of the source. -/
  items : Context → Parser (List Item)

/-- The grammar of which nothing is left to read. -/
def Grammar.exhausted : Grammar where
  assignment _ := failure
  expression _ := failure
  unary _ := failure
  binary _ _ _ := failure
  subscripts _ _ _ _ := failure
  chain _ _ := failure
  sequence _ := failure
  arguments _ := failure
  group _ := failure
  elements _ := failure
  entries _ := failure
  members _ := failure
  template _ _ := failure
  element _ _ := failure
  attributes _ _ := failure
  children _ _ _ := failure
  pattern _ := failure
  patternElements _ := failure
  patternEntries _ := failure
  params _ := failure
  statement _ := failure
  statements _ := failure
  declarators _ := failure
  cases _ := failure
  caseBody _ := failure
  specifiers := failure
  items _ := failure

/-! ### Expressions read as patterns -/

/-- The computed part of a key, as a part of a pattern. -/
def Key.computedPart : Key → List Pattern
  | .plain _ => []
  | .computed expr => [.expr expr]

mutual

/-- The pattern that an expression is, if it can be one. -/
def Expr.pattern? : Expr → Option Pattern
  | .name _ word => some (.name word)
  | .member start owner key => some (.expr (.member start owner key))
  | .superMember start key => some (.expr (.superMember start key))
  | .paren start inner =>
    match inner.unparen with
    | .name _ _ => some (.expr (.paren start inner))
    | .member _ _ _ => some (.expr (.paren start inner))
    | _ => none
  | .object _ entries => (entryPatterns? entries).map .group
  | .array _ parts => (partPatterns? parts).map .group
  | .assign _ target value => some (.default target value)
  | _ => none

/-- The patterns that the entries of an object are. -/
def entryPatterns? : List Entry → Option (List Pattern)
  | [] => some []
  | .pair _ key value :: rest => do
    return key.computedPart ++ [← value.pattern?] ++ (← entryPatterns? rest)
  | .shorthand _ word none :: rest => do
    return .name word :: (← entryPatterns? rest)
  | .shorthand _ word (some value) :: rest => do
    return .default (.name word) value :: (← entryPatterns? rest)
  | .spread expr :: rest => do
    return .rest (← expr.pattern?) :: (← entryPatterns? rest)
  | _ => none

/-- The patterns that the elements of an array, or arguments, are. -/
def partPatterns? : List Part → Option (List Pattern)
  | [] => some []
  | .expr expr :: rest => do
    return (← expr.pattern?) :: (← partPatterns? rest)
  | .spread expr :: rest => do
    return .rest (← expr.pattern?) :: (← partPatterns? rest)
  | .pattern pattern :: rest => do
    return pattern :: (← partPatterns? rest)
  | _ => none

end

/-- Whether a parameter binds names only. -/
def Pattern.isBinding : Pattern → Bool
  | .expr _ => false
  | .default pattern _ => pattern.isBinding
  | .rest pattern => pattern.isBinding
  | _ => true

/-- The parameters that arguments in parentheses are, if an arrow follows. -/
def arrowParams? (parts : List Part) : Option (List Pattern) := do
  let params ← partPatterns? parts
  if params.all Pattern.isBinding then some params else none

namespace Parser

/-- Takes what may be missing only if the source is wrong. -/
def given {α : Type} (value : Option α) : Parser α :=
  match value with
  | some found => pure found
  | none => failure

end Parser

namespace Grammar

open DocEntities.Script.Parser

/-- A key, and the name it is if it stands alone. -/
def key (below : Grammar) (context : Context) : Parser (Key × Option String) := do
  let token := (← get).token
  match token with
  | .word word _ => next; return (.plain (some word), token.name?)
  | .text value => next; return (.plain value, none)
  | .number significand exponent =>
    next
    return (.plain (some (Decimal.text significand exponent)), none)
  | .bigInt => next; return (.plain none, none)
  | .sign "[" =>
    next
    let expr ← below.assignment context.inner
    sign "]"
    return (.computed expr, none)
  | _ => failure

/-! ### Patterns -/

/-- A pattern without a default value. -/
def barePattern (below : Grammar) (context : Context) : Parser Pattern := do
  if ← takeSign "[" then return .group (← below.patternElements context.inner)
  else if ← takeSign "\x7b" then return .group (← below.patternEntries context.inner)
  else return .name (← name)

/-- A pattern that a default value may follow. -/
def patternHere (below : Grammar) (context : Context) : Parser Pattern := do
  let found ← below.barePattern context
  if ← takeSign "=" then return .default found (← below.assignment context.inner)
  else return found

/-- Elements of an array pattern up to the closing bracket. -/
def patternElementsHere (below : Grammar) (context : Context) : Parser (List Pattern) := do
  if ← takeSign "]" then return []
  else if ← takeSign "," then below.patternElements context
  else
    let head ←
      if ← takeSign "..." then pure (Pattern.rest (← below.pattern context))
      else below.patternHere context
    if ← takeSign "," then return head :: (← below.patternElements context)
    else
      sign "]"
      return [head]

/-- One entry of an object pattern. -/
def patternEntry (below : Grammar) (context : Context) : Parser (List Pattern) := do
  if ← takeSign "..." then return [.rest (← below.pattern context)]
  else
    let (key, alone) ← below.key context
    if ← takeSign ":" then return key.computedPart ++ [← below.pattern context]
    else
      let word ← given alone
      if ← takeSign "=" then return [.default (.name word) (← below.assignment context.inner)]
      else return [.name word]

/-- Entries of an object pattern up to the closing brace. -/
def patternEntriesHere (below : Grammar) (context : Context) : Parser (List Pattern) := do
  if ← takeSign "\x7d" then return []
  else
    let head ← below.patternEntry context
    if ← takeSign "," then return head ++ (← below.patternEntries context)
    else
      sign "\x7d"
      return head

/-- Parameters up to the closing parenthesis. -/
def paramsHere (below : Grammar) (context : Context) : Parser (List Pattern) := do
  if ← takeSign ")" then return []
  else if ← takeSign "..." then
    let last ← below.pattern context
    sign ")"
    return [.rest last]
  else
    let head ← below.patternHere context
    if ← takeSign "," then return head :: (← below.params context)
    else
      sign ")"
      return [head]

/-! ### Functions -/

/-- The parameters and the body of a function, from the opening parenthesis on. -/
def functionRest (below : Grammar) (isAsync isGenerator : Bool) :
    Parser (List Pattern × List Statement) := do
  let context := Context.ofFunction isAsync isGenerator
  sign "("
  let params ← below.params context
  sign "\x7b"
  return (params, ← below.statements context)

end Grammar

end DocEntities.Script
