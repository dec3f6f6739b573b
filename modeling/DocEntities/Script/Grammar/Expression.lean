/-
This file reads expressions. Parentheses and `async` calls are read as expressions first, and
as parameters once an arrow follows; an arrow function ends the expression it stands in, so
nothing is attached to it. A member chain with `?.` anywhere in it is a compound from there on.
-/

import DocEntities.Script.Grammar.Class

namespace DocEntities.Script.Grammar

open DocEntities.Script.Parser

/-! ### Lists of expressions -/

/-- An expression or a spread. -/
def argument (below : Grammar) (context : Context) : Parser Part := do
  if ← takeSign "..." then return .spread (← below.assignment context.inner)
  else return .expr (← below.assignment context.inner)

/-- Arguments up to the closing parenthesis. -/
def argumentsHere (below : Grammar) (context : Context) : Parser (List Part) := do
  if ← takeSign ")" then return []
  else
    let head ← below.argument context
    if ← takeSign "," then return head :: (← below.arguments context)
    else
      sign ")"
      return [head]

/-- Array elements up to the closing bracket; holes are left out. -/
def elementsHere (below : Grammar) (context : Context) : Parser (List Part) := do
  if ← takeSign "]" then return []
  else if ← takeSign "," then below.elements context
  else
    let head ← below.argument context
    if ← takeSign "," then return head :: (← below.elements context)
    else
      sign "]"
      return [head]

/-- What stands in parentheses: expressions, or parameters with a rest parameter last. -/
def groupHere (below : Grammar) (context : Context) : Parser (List Part × Bool) := do
  if ← takeSign ")" then return ([], true)
  else if ← takeSign "..." then
    let last ← below.pattern context
    sign ")"
    return ([.pattern (.rest last)], false)
  else
    let head ← below.assignment context.inner
    if ← takeSign "," then
      let (rest, trailing) ← below.group context
      return (.expr head :: rest, trailing)
    else
      sign ")"
      return ([.expr head], false)

/-- More expressions of a sequence. -/
def sequenceHere (below : Grammar) (context : Context) : Parser (List Part) := do
  if ← takeSign "," then
    let head ← below.assignment context
    return .expr head :: (← below.sequence context)
  else return []

/-! ### Functions and classes -/

/-- The body of an arrow function, from the arrow on. -/
def arrowBody (below : Grammar) (context : Context) (isAsync : Bool) : Parser (List Part) := do
  sign "=>"
  let inside := { Context.ofFunction isAsync false with inOperator := context.inOperator }
  if ← takeSign "\x7b" then return (← below.statements inside.inner).map .statement
  else return [.expr (← below.assignment inside)]

/-- Whether an arrow follows on the same line. -/
def atArrow : Parser Bool := do
  let cursor ← get
  return cursor.token.isSign "=>" && !cursor.newline

/-- A function expression, from the word `function` on. -/
def functionExpr (below : Grammar) (start : Position) (isAsync : Bool) : Parser Expr := do
  word "function"
  let isGenerator ← takeSign "*"
  if (← get).token.name?.isSome then next
  let (params, body) ← below.functionRest isAsync isGenerator
  return .function start params body

/-- The base and the body of a class, from behind its name on. -/
def classRest (below : Grammar) (context : Context) : Parser (List Member × Option Expr) := do
  let base ←
    if ← takeWord "extends" then pure (some (← below.chain context.inner true)) else pure none
  sign "\x7b"
  return (← below.members context.inner, base)

/-- A class expression. -/
def classExpr (below : Grammar) (context : Context) (start : Position) : Parser Expr := do
  word "class"
  if (← get).token.name?.isSome then next
  let (members, base) ← below.classRest context
  return .class start members base

/-! ### Primary expressions -/

/-- An expression in parentheses, or an arrow function. -/
def parenthesized (below : Grammar) (context : Context) (start : Position) : Parser Expr := do
  sign "("
  let (parts, trailing) ← below.group context.inner
  if ← atArrow then
    let params ← given (arrowParams? parts)
    return .arrow start params (← below.arrowBody context false)
  else if trailing then failure
  else
    match parts with
    | [.expr inner] => return .paren start inner
    | .expr first :: _ =>
      if parts.all (fun part => match part with | .expr _ => true | _ => false) then
        return .paren start (.compound first.start parts)
      else failure
    | _ => failure

/-- A template from its opening mark on. Only behind a tag may an escape stand for nothing. -/
def templateHere (below : Grammar) (context : Context) (tagged : Bool) :
    Parser (List Part) := do
  let spot := (← get).after
  let (taken, ends) ← given (templateRun? spot.rest)
  seek (spot.advance taken)
  if !tagged && !escapesHold (spot.rest.take taken) then failure
  else if ends then return []
  else
    let head ← below.expression context.inner
    if ← atSign "\x7d" then return .expr head :: (← below.template context tagged) else failure

/-- A regular expression. -/
def regexLiteral (start : Position) : Parser Expr := do
  let spot := (← get).here.advance 1
  let taken ← given (regex? spot.rest)
  seek (spot.advance taken)
  return .compound start []

/-- What the word `async` opens: a function, an arrow function, or an expression that starts
with this name. -/
def asyncExpr (below : Grammar) (context : Context) (start : Position) : Parser Expr := do
  let following ← peek
  if following.newline then
    next
    return .name start "async"
  else if following.token.isWord "function" then
    next
    below.functionExpr start true
  else if following.token.isSign "(" then
    next
    next
    let arguments ← below.arguments context.inner
    if ← atArrow then
      let params ← given (arrowParams? arguments)
      return .arrow start params (← below.arrowBody context true)
    else return .call start (.name start "async") arguments
  else
    next
    match following.token.name? with
    | some param =>
      let behind ← peek
      if behind.token.isSign "=>" && !behind.newline then
        next
        return .arrow start [.name param] (← below.arrowBody context true)
      else return .name start "async"
    | none => return .name start "async"

/-- What the word `super` opens. -/
def superExpr (below : Grammar) (context : Context) (start : Position) : Parser Expr := do
  next
  if ← takeSign "." then
    match (← get).token with
    | .word word _ =>
      next
      return .superMember start (.plain (some word))
    | _ => failure
  else if ← takeSign "[" then
    let key ← below.expression context.inner
    sign "]"
    return .superMember start (.computed key)
  else
    sign "("
    return .compound start (← below.arguments context.inner)

/-- What the word `import` opens inside an expression: `import.meta`, or a call with one argument
or two and no comma behind the last. -/
def importExpr (below : Grammar) (context : Context) (start : Position) : Parser Expr := do
  next
  if ← takeSign "." then
    word "meta"
    return .compound start []
  else
    sign "("
    let path ← below.argument context.inner
    let options ←
      if ← takeSign "," then pure [← below.argument context.inner] else pure []
    sign ")"
    return .compound start (path :: options)

/-- What the word `new` opens. -/
def newExpr (below : Grammar) (context : Context) (start : Position) : Parser Expr := do
  next
  if ← takeSign "." then
    word "target"
    return .compound start []
  else
    let callee ← below.chain context false
    if ← takeSign "(" then return .new start callee (← below.arguments context.inner)
    else return .new start callee []

/-- A name, or an arrow function with this name as its parameter. -/
def nameExpr (below : Grammar) (context : Context) (start : Position) : Parser Expr := do
  let word ← name
  if ← atArrow then return .arrow start [.name word] (← below.arrowBody context false)
  else return .name start word

/-- An element written as an expression. -/
def elementExpr (below : Grammar) (context : Context) (start : Position) : Parser Expr := do
  let cursor ← get
  if !cursor.elements then failure
  else
    let (parts, spot) ← below.element context.inner cursor.here
    seek spot
    return .compound start parts

/-- An expression that contains no operator outside of brackets. -/
def primary (below : Grammar) (context : Context) : Parser Expr := do
  let cursor ← get
  let start := cursor.here.position
  match cursor.token with
  | .word "function" false => below.functionExpr start false
  | .word "class" false => below.classExpr context start
  | .word "this" false => next; return .this start
  | .word "null" false => next; return .compound start []
  | .word "true" false => next; return .compound start []
  | .word "false" false => next; return .compound start []
  | .word "new" false => below.newExpr context start
  | .word "super" false => below.superExpr context start
  | .word "import" false => below.importExpr context start
  | .word "async" false => below.asyncExpr context start
  | .word _ _ => below.nameExpr context start
  | .text value => next; return .text start value
  | .number _ _ => next; return .compound start []
  | .bigInt => next; return .compound start []
  | .privateName =>
    next
    if ← atWord "in" then return .compound start [] else failure
  | .sign "(" => below.parenthesized context start
  | .sign "[" => next; return .array start (← below.elements context.inner)
  | .sign "\x7b" => next; return .object start (← below.entries context.inner)
  | .sign "`" => return .compound start (← below.templateHere context false)
  | .sign "/" => regexLiteral start
  | .sign "/=" => regexLiteral start
  | .sign "<" => below.elementExpr context start
  | _ => failure

/-! ### Accesses and calls -/

/-- Whether nothing can be attached to an expression. -/
def isArrow : Expr → Bool
  | .arrow _ _ _ => true
  | _ => false

/-- The access behind a dot. -/
def dotKey : Parser Key := do
  match (← get).token with
  | .word word _ => next; return .plain (some word)
  | .privateName => next; return .plain none
  | _ => failure

/-- A key as a part of an optional chain. -/
def keyParts : Key → List Part
  | .plain _ => []
  | .computed expr => [.expr expr]

/-- An access, which is a compound in an optional chain. -/
def access (chained : Bool) (object : Expr) (key : Key) : Expr :=
  if chained then .compound object.start (.expr object :: keyParts key)
  else .member object.start object key

/-- A call, which is a compound in an optional chain. -/
def called (chained : Bool) (callee : Expr) (arguments : List Part) : Expr :=
  if chained then .compound callee.start (.expr callee :: arguments)
  else .call callee.start callee arguments

/-- Accesses and calls behind an expression. -/
def subscriptsHere (below : Grammar) (context : Context) (calls chained : Bool) (expr : Expr) :
    Parser Expr := do
  match (← get).token with
  | .sign "." =>
    next
    let key ← dotKey
    below.subscripts context calls chained (access chained expr key)
  | .sign "?." =>
    if !calls then failure
    else
      next
      if ← takeSign "(" then
        let arguments ← below.arguments context.inner
        below.subscripts context calls true (called true expr arguments)
      else if ← takeSign "[" then
        let key ← below.expression context.inner
        sign "]"
        below.subscripts context calls true (access true expr (.computed key))
      else
        let key ← dotKey
        below.subscripts context calls true (access true expr key)
  | .sign "[" =>
    next
    let key ← below.expression context.inner
    sign "]"
    below.subscripts context calls chained (access chained expr (.computed key))
  | .sign "(" =>
    if !calls then return expr
    else
      next
      let arguments ← below.arguments context.inner
      below.subscripts context calls chained (called chained expr arguments)
  | .sign "`" =>
    let parts ← below.templateHere context true
    below.subscripts context calls chained (.compound expr.start (.expr expr :: parts))
  | _ => return expr

/-- An expression with accesses behind it, and with calls if they are allowed. An arrow function
has neither. -/
def chainHere (below : Grammar) (context : Context) (calls : Bool) : Parser Expr := do
  let expr ← below.primary context
  if isArrow expr then failure else below.subscriptsHere context calls false expr

/-! ### Operators -/

/-- Whether a token can start an operand of `await` outside of functions. -/
def startsOperand (token : Token) : Bool :=
  match token with
  | .word word _ => word != "in" && word != "of" && word != "instanceof"
  | .text _ | .number _ _ | .bigInt => true
  | .sign text =>
    ["(", "[", "\x7b", "`", "/", "/=", "+", "-", "!", "~", "++", "--"].contains text
  | _ => false

/-- Whether the current token is `await` and an operator. -/
def atAwait (context : Context) : Parser Bool := do
  if ← atWord "await" then
    match context.awaitWord with
    | .name => return false
    | .operator => return true
    | .either => return startsOperand (← peek).token
  else return false

/-- Whether a token is an operator before its operand. -/
def isPrefixOperator (token : Token) : Bool :=
  token.isOneOf ["+", "-", "~", "!", "++", "--"] || token.isWord "delete" ||
    token.isWord "void" || token.isWord "typeof"

/-- An expression with the operators before and behind it. Behind an operator that stands before
its operand no power may follow. -/
def unaryHere (below : Grammar) (context : Context) : Parser Expr := do
  let cursor ← get
  let start := cursor.here.position
  if isPrefixOperator cursor.token || (← atAwait context) then
    next
    let operand ← below.unary context
    if (← atSign "**") && !cursor.token.isOneOf ["++", "--"] then failure
    else return .compound start [.expr operand]
  else
    let expr ← below.primary context
    if isArrow expr then return expr
    else
      let expr ← below.subscriptsHere context true false expr
      let cursor ← get
      if cursor.token.isOneOf ["++", "--"] && !cursor.newline then
        next
        return .compound start [.expr expr]
      else return expr

/-- An operand of an operator, which is no arrow function. -/
def operandHere (below : Grammar) (context : Context) : Parser Expr := do
  let expr ← below.unaryHere context
  if isArrow expr then failure else return expr

/-- The precedence of a binary operator. -/
def precedence? (context : Context) (token : Token) : Option Nat :=
  match token with
  | .sign text =>
    if text == "??" then some 1
    else if text == "||" then some 2
    else if text == "&&" then some 3
    else if text == "|" then some 4
    else if text == "^" then some 5
    else if text == "&" then some 6
    else if ["==", "!=", "===", "!=="].contains text then some 7
    else if ["<", ">", "<=", ">="].contains text then some 8
    else if ["<<", ">>", ">>>"].contains text then some 9
    else if ["+", "-"].contains text then some 10
    else if ["*", "/", "%"].contains text then some 11
    else if text == "**" then some 12
    else none
  | .word "instanceof" false => some 8
  | .word "in" false => if context.inOperator then some 8 else none
  | _ => none

/-- Binary operators of a precedence and above, behind a left side. Powers group from the
right. -/
def binaryHere (below : Grammar) (context : Context) (least : Nat) (left : Expr) :
    Parser Expr := do
  match precedence? context (← get).token with
  | none => return left
  | some found =>
    if found < least then return left
    else
      next
      let operand ← below.unary context
      let right ← below.binary context (if found = 12 then 12 else found + 1) operand
      below.binary context least (.compound left.start [.expr left, .expr right])

/-- The signs of assignments. -/
def assignmentSigns : List String :=
  ["=", "+=", "-=", "*=", "/=", "%=", "**=", "<<=", ">>=", ">>>=", "&=", "|=", "^=", "&&=",
   "||=", "??="]

/-- What the word `yield` opens. -/
def yieldExpr (below : Grammar) (context : Context) (start : Position) : Parser Expr := do
  next
  let cursor ← get
  if cursor.newline || cursor.token == .done ||
      cursor.token.isOneOf [")", "]", "\x7d", ",", ";", ":"] || cursor.token.isWord "in" ||
      cursor.token.isWord "of" then
    return .compound start []
  else
    let _ ← takeSign "*"
    return .compound start [.expr (← below.assignment context)]

/-- A conditional expression behind its condition, or the condition alone. -/
def conditional (below : Grammar) (context : Context) (condition : Expr) : Parser Expr := do
  if ← takeSign "?" then
    let first ← below.assignment context.inner
    sign ":"
    let second ← below.assignment context
    return .compound condition.start [.expr condition, .expr first, .expr second]
  else return condition

/-- An expression without commas. -/
def assignmentHere (below : Grammar) (context : Context) : Parser Expr := do
  let start ← position
  if context.yieldOperator && (← atWord "yield") then below.yieldExpr context start
  else
    let operand ← below.unaryHere context
    if isArrow operand then return operand
    else
      let condition ← below.binaryHere context 0 operand
      let left ← below.conditional context condition
      if (← get).token.isOneOf assignmentSigns then
        let target ← given left.pattern?
        next
        return .assign start target (← below.assignment context)
      else return left

/-- An expression, commas included. -/
def expressionHere (below : Grammar) (context : Context) : Parser Expr := do
  let first ← below.assignmentHere context
  match ← below.sequenceHere context with
  | [] => return first
  | rest => return .compound first.start (.expr first :: rest)

end DocEntities.Script.Grammar
