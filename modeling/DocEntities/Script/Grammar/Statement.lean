/-
This file reads statements and the items of a module. A declaration under `export` is read as
the statement it would be alone.
-/

import DocEntities.Script.Grammar.Markup

namespace DocEntities.Script.Grammar

open DocEntities.Script.Parser

/-! ### Declarations -/

/-- One variable. -/
def declarator (below : Grammar) (context : Context) : Parser Declarator := do
  let start ← position
  let target ← below.barePattern context
  if ← takeSign "=" then return .mk start target (some (← below.assignment context))
  else return .mk start target none

/-- Whether a variable has the value it needs outside of a loop over values: one that a pattern
takes apart. -/
def isComplete : Declarator → Bool
  | .mk _ (.group _) none => false
  | _ => true

/-- More variables of a declaration. -/
def declaratorsHere (below : Grammar) (context : Context) : Parser (List Declarator) := do
  if ← takeSign "," then
    let head ← below.declarator context
    return head :: (← below.declarators context)
  else return []

/-- Whether a declaration of variables starts here. The word `let` opens one only before what it
can declare. -/
def atVariables : Parser Bool := do
  if (← atWord "var") || (← atWord "const") then return true
  else if ← atWord "let" then
    let following ← peek
    return match following.token with
      | .word word _ => word != "in" && word != "instanceof"
      | .sign text => text == "[" || text == "\x7b"
      | _ => false
  else return false

/-- A declaration of variables. -/
def declaration (below : Grammar) (context : Context) (start : Position) : Parser Statement := do
  next
  let head ← below.declarator context
  let rest ← below.declaratorsHere context
  semicolon
  if (head :: rest).all isComplete then return .declaration start (head :: rest) else failure

/-- Whether a function starts here that `async` opens. -/
def atAsyncFunction : Parser Bool := do
  if ← atWord "async" then
    let following ← peek
    return following.token.isWord "function" && !following.newline
  else return false

/-- A declaration of a function, from `async` or `function` on, and its name. -/
def functionParts (below : Grammar) :
    Parser (Option String × List Pattern × List Statement) := do
  let isAsync ← takeWord "async"
  word "function"
  let isGenerator ← takeSign "*"
  let found := (← get).token.name?
  if found.isSome then next
  let (params, body) ← below.functionRest isAsync isGenerator
  return (found, params, body)

/-- A declaration of a function. -/
def functionStatement (below : Grammar) (start : Position) : Parser Statement := do
  let (found, params, body) ← below.functionParts
  return .function start (← given found) params body

/-- A declaration of a class, and its name. -/
def classParts (below : Grammar) (context : Context) :
    Parser (Option String × List Member × Option Expr) := do
  word "class"
  let found := (← get).token.name?
  if found.isSome then next
  let (members, base) ← below.classRest context
  return (found, members, base)

/-- A declaration of a class. -/
def classStatement (below : Grammar) (context : Context) (start : Position) :
    Parser Statement := do
  let (found, members, base) ← below.classParts context
  return .class start (← given found) members base

/-! ### Statements with parts -/

/-- A condition in parentheses. -/
def condition (below : Grammar) (context : Context) : Parser Part := do
  sign "("
  let expr ← below.expression context
  sign ")"
  return .expr expr

/-- Statements in braces. -/
def block (below : Grammar) (context : Context) : Parser (List Part) := do
  sign "\x7b"
  return (← below.statements context).map .statement

/-- `if` -/
def ifStatement (below : Grammar) (context : Context) (start : Position) : Parser Statement := do
  next
  let test ← below.condition context
  let first ← below.statement context
  if ← takeWord "else" then
    return .compound start [test, .statement first, .statement (← below.statement context)]
  else return .compound start [test, .statement first]

/-- An expression that ends before the given sign, if there is one. -/
def optionalExpression (below : Grammar) (context : Context) (closing : String) :
    Parser (List Part) := do
  if ← takeSign closing then return []
  else
    let expr ← below.expression context
    sign closing
    return [.expr expr]

/-- The rest of a loop with a counter, behind the first semicolon. -/
def forRest (below : Grammar) (context : Context) (start : Position) (head : List Part) :
    Parser Statement := do
  let test ← below.optionalExpression context ";"
  let update ← below.optionalExpression context ")"
  let body ← below.statement context
  return .compound start (head ++ test ++ update ++ [.statement body])

/-- The rest of a loop over the values of an object, from `in` or `of` on. -/
def forEachRest (below : Grammar) (context : Context) (start : Position) (head : Part) :
    Parser Statement := do
  let looped ←
    if ← takeWord "in" then below.expression context
    else
      word "of"
      below.assignment context
  sign ")"
  let body ← below.statement context
  return .compound start [head, .expr looped, .statement body]

/-- Whether a loop over the values of an object goes on here. -/
def atForEach : Parser Bool := do
  return (← atWord "of") || (← atWord "in")

/-- `for` -/
def forStatement (below : Grammar) (context : Context) (start : Position) : Parser Statement := do
  next
  let _ ← takeWord "await"
  sign "("
  if ← takeSign ";" then below.forRest context start []
  else if ← atVariables then
    next
    let head ← below.declarator context.loopHead
    if ← atForEach then below.forEachRest context start (.declarator head)
    else
      let rest ← below.declarators context.loopHead
      sign ";"
      if (head :: rest).all isComplete then
        below.forRest context start ((head :: rest).map .declarator)
      else failure
  else
    let expr ← below.expression context.loopHead
    if ← atForEach then
      below.forEachRest context start (.pattern (← given expr.pattern?))
    else
      sign ";"
      below.forRest context start [.expr expr]

/-- `while` and `with` -/
def guardedStatement (below : Grammar) (context : Context) (start : Position) :
    Parser Statement := do
  next
  let test ← below.condition context
  return .compound start [test, .statement (← below.statement context)]

/-- `do`; its condition is visited before its body. -/
def doStatement (below : Grammar) (context : Context) (start : Position) : Parser Statement := do
  next
  let body ← below.statement context
  word "while"
  let test ← below.condition context
  let _ ← takeSign ";"
  return .compound start [test, .statement body]

/-- `return` -/
def returnStatement (below : Grammar) (context : Context) (start : Position) :
    Parser Statement := do
  next
  let cursor ← get
  if cursor.newline || cursor.token == .done || cursor.token.isOneOf [";", "\x7d"] then
    semicolon
    return .compound start []
  else
    let expr ← below.expression context
    semicolon
    return .compound start [.expr expr]

/-- `throw`, whose operand stands on the same line. -/
def throwStatement (below : Grammar) (context : Context) (start : Position) :
    Parser Statement := do
  next
  if ← onNewLine then failure
  else
    let expr ← below.expression context
    semicolon
    return .compound start [.expr expr]

/-- `break` and `continue`, with a label on the same line if any. -/
def jumpStatement (start : Position) : Parser Statement := do
  next
  let cursor ← get
  if cursor.token.name?.isSome && !cursor.newline then next
  semicolon
  return .compound start []

/-- The handler of a `try`, if there is one. -/
def handler (below : Grammar) (context : Context) : Parser (Option (List Part)) := do
  if ← takeWord "catch" then
    let param ←
      if ← takeSign "(" then
        let found ← below.pattern context
        sign ")"
        pure [Part.pattern found]
      else pure []
    return some (param ++ (← below.block context))
  else return none

/-- `try` -/
def tryStatement (below : Grammar) (context : Context) (start : Position) : Parser Statement := do
  next
  let tried ← below.block context
  let caught ← below.handler context
  if ← takeWord "finally" then
    return .compound start (tried ++ caught.getD [] ++ (← below.block context))
  else return .compound start (tried ++ (← given caught))

/-- Statements up to the next case. -/
def caseBodyHere (below : Grammar) (context : Context) : Parser (List Part) := do
  if (← atWord "case") || (← atWord "default") || (← atSign "\x7d") then return []
  else
    let head ← below.statement context
    return .statement head :: (← below.caseBody context)

/-- Cases of a switch up to the closing brace. -/
def casesHere (below : Grammar) (context : Context) : Parser (List Part) := do
  if ← takeSign "\x7d" then return []
  else
    let test ←
      if ← takeWord "default" then pure []
      else
        word "case"
        pure [Part.expr (← below.expression context)]
    sign ":"
    let body ← below.caseBody context
    return test ++ body ++ (← below.cases context)

/-- `switch` -/
def switchStatement (below : Grammar) (context : Context) (start : Position) :
    Parser Statement := do
  next
  let test ← below.condition context
  sign "\x7b"
  return .compound start (test :: (← below.cases context))

/-- An expression as a statement, or a label and the statement it names. -/
def plainStatement (below : Grammar) (context : Context) (start : Position) :
    Parser Statement := do
  let labelled ←
    if (← get).token.name?.isSome then pure ((← peek).token.isSign ":") else pure false
  if labelled then
    next
    next
    return .compound start [.statement (← below.statement context)]
  else
    let expr ← below.expressionHere context
    semicolon
    return .expression start expr

/-- A statement. -/
def statementHere (below : Grammar) (context : Context) : Parser Statement := do
  let cursor ← get
  let start := cursor.here.position
  let inside := context.inner
  if ← atVariables then below.declaration inside start
  else if ← atAsyncFunction then below.functionStatement start
  else
    match cursor.token with
    | .sign "\x7b" => return .compound start (← below.block inside)
    | .sign ";" => next; return .compound start []
    | .word "function" false => below.functionStatement start
    | .word "class" false => below.classStatement inside start
    | .word "if" false => below.ifStatement inside start
    | .word "for" false => below.forStatement inside start
    | .word "while" false => below.guardedStatement inside start
    | .word "with" false => below.guardedStatement inside start
    | .word "do" false => below.doStatement inside start
    | .word "return" false => below.returnStatement inside start
    | .word "throw" false => below.throwStatement inside start
    | .word "break" false => jumpStatement start
    | .word "continue" false => jumpStatement start
    | .word "debugger" false => next; semicolon; return .compound start []
    | .word "try" false => below.tryStatement inside start
    | .word "switch" false => below.switchStatement inside start
    | _ => below.plainStatement inside start

/-- Statements up to the closing brace. -/
def statementsHere (below : Grammar) (context : Context) : Parser (List Statement) := do
  if ← takeSign "\x7d" then return []
  else
    let head ← below.statementHere context
    return head :: (← below.statements context)

/-! ### Modules -/

/-- The name of something imported or exported, which may be a text. -/
def moduleName : Parser Unit := do
  match (← get).token with
  | .word _ _ => next
  | .text _ => next
  | _ => failure

/-- Names of an import or export up to the closing brace. -/
def specifiersHere (below : Grammar) : Parser Unit := do
  if ← takeSign "\x7d" then return ()
  else
    moduleName
    if ← takeWord "as" then moduleName
    if ← takeSign "," then below.specifiers else sign "\x7d"

/-- The module that something is imported from, and the end of the item. -/
def source (start : Position) : Parser Item := do
  match (← get).token with
  | .text _ => next
  | _ => failure
  semicolon
  return .other start []

/-- What an import names, up to the word `from`. -/
def importNames (below : Grammar) : Parser Unit := do
  if ← takeSign "*" then
    word "as"
    let _ ← name
  else
    sign "\x7b"
    below.specifiers

/-- `import` as an item of a module. -/
def importItem (below : Grammar) (start : Position) : Parser Item := do
  next
  match (← get).token with
  | .text _ => source start
  | .sign _ =>
    below.importNames
    word "from"
    source start
  | _ =>
    let _ ← name
    if ← takeSign "," then below.importNames
    word "from"
    source start

/-- `export default`, from behind these words on. -/
def defaultItem (below : Grammar) (context : Context) (start : Position) : Parser Item := do
  if (← atWord "function") || (← atAsyncFunction) then
    let (found, params, body) ← below.functionParts
    return .defaultFunction start found params body
  else if ← atWord "class" then
    let (found, members, base) ← below.classParts context
    return .defaultClass start found members base
  else
    let expr ← below.assignment context
    semicolon
    return .other start [.expr expr]

/-- `export` -/
def exportItem (below : Grammar) (context : Context) (start : Position) : Parser Item := do
  next
  if ← takeWord "default" then below.defaultItem context start
  else if ← takeSign "*" then
    if ← takeWord "as" then moduleName
    word "from"
    source start
  else if ← takeSign "\x7b" then
    below.specifiers
    if ← takeWord "from" then source start
    else
      semicolon
      return .other start []
  else if (← atVariables) || (← atAsyncFunction) || (← atWord "function") ||
      (← atWord "class") then
    return .exported start (← below.statement context)
  else failure

/-- An item of a script or a module. -/
def item (below : Grammar) (context : Context) : Parser Item := do
  let start ← position
  if ← atWord "export" then below.exportItem context start
  else if ← atWord "import" then
    let following ← peek
    if following.token.isOneOf ["(", "."] then
      return .statement (← below.statementHere context)
    else below.importItem start
  else return .statement (← below.statementHere context)

/-- Items up to the end of the source. -/
def itemsHere (below : Grammar) (context : Context) : Parser (List Item) := do
  if (← get).token == .done then return []
  else
    let head ← below.item context
    return head :: (← below.items context)

end DocEntities.Script.Grammar
