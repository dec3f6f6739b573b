/-
This file reads object literals and class bodies. The words `get`, `set`, `async` and `static`
change what follows them, unless what follows shows that they are themselves the key.
-/

import DocEntities.Script.Grammar.Basic

namespace DocEntities.Script.Grammar

open DocEntities.Script.Parser

/-! ### Object literals -/

/-- Whether a word before this token is itself the key of an entry. -/
def closesEntryKey (token : Token) : Bool :=
  token.isOneOf [",", ":", "(", "\x7d", "="]

/-- An entry whose key is the next token. -/
def plainEntry (below : Grammar) (context : Context) (start : Position) : Parser Entry := do
  let (key, alone) ← below.key context
  if ← atSign "(" then
    let (params, body) ← below.functionRest false false
    return .method start key params body
  else if ← takeSign ":" then return .pair start key (← below.assignment context.inner)
  else
    let word ← given alone
    if ← takeSign "=" then
      return .shorthand start word (some (← below.assignment context.inner))
    else return .shorthand start word none

/-- A method of an object literal, its modifiers already taken. -/
def entryMethod (below : Grammar) (context : Context) (start : Position)
    (isAsync isGenerator : Bool) : Parser Entry := do
  let (key, _) ← below.key context
  let (params, body) ← below.functionRest isAsync isGenerator
  return .method start key params body

/-- One entry of an object literal. -/
def entry (below : Grammar) (context : Context) : Parser Entry := do
  let cursor ← get
  let start := cursor.here.position
  match cursor.token with
  | .sign "..." =>
    next
    return .spread (← below.assignment context.inner)
  | .sign "*" =>
    next
    below.entryMethod context start false true
  | .word "async" false =>
    let following ← peek
    if closesEntryKey following.token || following.newline then below.plainEntry context start
    else
      next
      let isGenerator ← takeSign "*"
      below.entryMethod context start true isGenerator
  | .word word false =>
    if word == "get" || word == "set" then
      let following ← peek
      if closesEntryKey following.token then below.plainEntry context start
      else
        next
        let (key, _) ← below.key context
        let (params, body) ← below.functionRest false false
        return .accessor start key params body
    else below.plainEntry context start
  | _ => below.plainEntry context start

/-- Object entries up to the closing brace. -/
def entriesHere (below : Grammar) (context : Context) : Parser (List Entry) := do
  if ← takeSign "\x7d" then return []
  else
    let head ← below.entry context
    if ← takeSign "," then return head :: (← below.entries context)
    else
      sign "\x7d"
      return [head]

/-! ### Class bodies -/

/-- The modifiers of a class member. -/
structure Modifiers where
  isStatic : Bool := false
  isAsync : Bool := false
  isGenerator : Bool := false
  isAccessor : Bool := false

/-- Whether a word before this token is itself the key of a class member. -/
def closesMemberKey (token : Token) : Bool :=
  token.isOneOf ["(", "=", ";", "\x7d"] || token == .done

/-- The modifiers of a class member besides `static`. -/
def modifiers (isStatic : Bool) : Parser Modifiers := do
  let cursor ← get
  match cursor.token with
  | .sign "*" =>
    next
    return { isStatic := isStatic, isGenerator := true }
  | .word "async" false =>
    let following ← peek
    if closesMemberKey following.token || following.newline then return { isStatic := isStatic }
    else
      next
      let isGenerator ← takeSign "*"
      return { isStatic := isStatic, isAsync := true, isGenerator := isGenerator }
  | .word word false =>
    if word == "get" || word == "set" then
      let following ← peek
      if closesMemberKey following.token || following.token.isSign "*" then
        return { isStatic := isStatic }
      else
        next
        return { isStatic := isStatic, isAccessor := true }
    else return { isStatic := isStatic }
  | _ => return { isStatic := isStatic }

/-- The key of a class member, which may be private. -/
def memberKey (below : Grammar) (context : Context) : Parser Key := do
  if (← get).token == .privateName then
    next
    return .plain none
  else return (← below.key context).1

/-- A class member behind its modifiers. The constructor and private members tell nothing of
their own; what is called like the constructor counts as one, also behind `static`. -/
def memberRest (below : Grammar) (context : Context) (start : Position) (found : Modifiers) :
    Parser Member := do
  let isPrivate := (← get).token == .privateName
  let key ← below.memberKey context
  if ← atSign "(" then
    let (params, body) ← below.functionRest found.isAsync found.isGenerator
    let isConstructor := !found.isAccessor && !found.isAsync && !found.isGenerator &&
      key.propertyName? == some "constructor"
    if isPrivate || isConstructor then return .other start [.function params body]
    else if found.isAccessor then return .accessor start key found.isStatic params body
    else return .method start key found.isStatic params body
  else if found.isAccessor || found.isAsync || found.isGenerator then failure
  else
    let value ←
      if ← takeSign "=" then pure (some (← below.assignment context.inner)) else pure none
    semicolon
    if isPrivate then return .other start (value.toList.map .expr)
    else return .field start key found.isStatic value

/-- One class member. -/
def member (below : Grammar) (context : Context) : Parser Member := do
  let cursor ← get
  let start := cursor.here.position
  match cursor.token with
  | .sign ";" =>
    next
    return .other start []
  | .word "static" false =>
    let following ← peek
    if closesMemberKey following.token then below.memberRest context start {}
    else
      next
      if ← takeSign "\x7b" then
        return .other start ((← below.statements context.inner).map .statement)
      else below.memberRest context start (← modifiers true)
  | _ => below.memberRest context start (← modifiers false)

/-- Class members up to the closing brace. -/
def membersHere (below : Grammar) (context : Context) : Parser (List Member) := do
  if ← takeSign "\x7d" then return []
  else
    let head ← below.member context
    return head :: (← below.members context)

end DocEntities.Script.Grammar
