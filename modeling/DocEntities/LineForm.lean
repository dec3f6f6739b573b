/-
This file reads evidence off the first line of code behind a comment, as plain text. It is
the weakest evidence there is: whatever the code itself or the tags say counts more. Only
what stands before the first opening brace of the line is looked at, and the forms are tried
in a fixed order, the narrower before the wider.
-/

import DocEntities.Evidence
import DocEntities.Text.Space
import DocEntities.Text.WordChar

namespace DocEntities

/-- The forms of a line that say something about the entity it defines. -/
inductive LineForm where
  /-- `function name(` -/
  | functionStatement (name : String)
  /-- `var name = function` -/
  | functionExpression (name : String)
  /-- `Owner.prototype.name = function` -/
  | prototypeMethod (owner name : String)
  /-- `Owner.prototype.name = value` -/
  | prototypeProperty (owner name : String)
  /-- `receiver.name = function` -/
  | method (receiver name : String)
  /-- `receiver.name = value` -/
  | property (receiver name : String)
  /-- `var name = value` -/
  | declaration (name : String)
  deriving DecidableEq, Repr, Inhabited

namespace LineForm

/-! ### Pieces of a line -/

/-- A character of a name in a line. -/
def isNameChar (c : Char) : Bool :=
  Text.isWordChar c || c == '$'

/-- The name at the start of a text, not empty, and what follows it. -/
def name? (text : List Char) : Option (List Char × List Char) :=
  match text.takeWhile isNameChar with
  | [] => none
  | name => some (name, text.dropWhile isNameChar)

/-- What follows a blank and all blanks behind it. -/
def afterBlanks? : List Char → Option (List Char)
  | c :: rest => if Text.isSpace c then some (Text.trimStart rest) else none
  | [] => none

/-- What follows an assignment sign, which spaces and tabs may precede. -/
def afterAssign? (text : List Char) : Option (List Char) :=
  match text.dropWhile Text.isInlineBlank with
  | '=' :: rest => some rest
  | _ => none

/-- The word that opens a function. -/
def functionWord : List Char := "function".toList

/-- Whether the text behind an assignment sign opens a function. -/
def opensFunction (text : List Char) : Bool :=
  (Text.afterStart? functionWord (text.dropWhile Text.isInlineBlank)).isSome

/-- Whether there is a value behind an assignment sign. -/
def opensValue : List Char → Bool
  | [] => false
  | c :: _ => c != '\n' && c != ';'

/-- The name that `var`, `let` or `const` declares, and what follows its assignment sign. -/
def declared? (text : List Char) : Option (List Char × List Char) := do
  let rest ← (Text.afterStart? "var".toList text).or
    ((Text.afterStart? "let".toList text).or (Text.afterStart? "const".toList text))
  let (name, rest) ← name? (← afterBlanks? rest)
  return (name, ← afterAssign? rest)

/-- The owner and the name of `Owner.prototype.name`, and what follows the assignment sign. -/
def prototypeMember? (text : List Char) : Option (List Char × List Char × List Char) := do
  let (owner, rest) ← name? text
  let rest ← Text.afterStart? ".prototype.".toList rest
  let (name, rest) ← name? rest
  return (owner, name, ← afterAssign? rest)

/-- The receiver and the name of `receiver.name`, and what follows the assignment sign. -/
def plainMember? (text : List Char) : Option (List Char × List Char × List Char) := do
  let (receiver, rest) ← name? text
  let rest ← Text.afterStart? ['.'] rest
  let (name, rest) ← name? rest
  return (receiver, name, ← afterAssign? rest)

/-- The receiver and the name of a chain of any length, and what follows the assignment sign.
The name is what follows the last dot. -/
def chainMember? (text : List Char) : Option (List Char × List Char × List Char) := do
  let inChain (c : Char) : Bool := isNameChar c || c == '.'
  let chain := (text.takeWhile inChain).reverse
  let name := (chain.takeWhile (· != '.')).reverse
  let receiver := ((chain.dropWhile (· != '.')).drop 1).reverse
  if name.isEmpty || receiver.isEmpty then none
  else return (receiver, name, ← afterAssign? (text.dropWhile inChain))

/-! ### Forms -/

/-- `function name(` -/
def functionStatement? (text : List Char) : Option LineForm := do
  let rest ← afterBlanks? (← Text.afterStart? functionWord text)
  let (name, rest) ← name? rest
  match Text.trimStart rest with
  | '(' :: _ => some (.functionStatement (String.ofList name))
  | _ => none

/-- `var name = function` -/
def functionExpression? (text : List Char) : Option LineForm := do
  let (name, value) ← declared? text
  if opensFunction value then some (.functionExpression (String.ofList name)) else none

/-- `Owner.prototype.name = function` -/
def prototypeMethod? (text : List Char) : Option LineForm := do
  let (owner, name, value) ← prototypeMember? text
  if opensFunction value then
    some (.prototypeMethod (String.ofList owner) (String.ofList name))
  else none

/-- `Owner.prototype.name = value` -/
def prototypeProperty? (text : List Char) : Option LineForm := do
  let (owner, name, value) ← prototypeMember? text
  if opensValue value then
    some (.prototypeProperty (String.ofList owner) (String.ofList name))
  else none

/-- `receiver.name = function` -/
def method? (text : List Char) : Option LineForm := do
  let (receiver, name, value) ← chainMember? text
  if opensFunction value then some (.method (String.ofList receiver) (String.ofList name))
  else none

/-- `receiver.name = value` -/
def property? (text : List Char) : Option LineForm := do
  let (receiver, name, value) ← plainMember? text
  if opensValue value then some (.property (String.ofList receiver) (String.ofList name))
  else none

/-- `var name = value` -/
def declaration? (text : List Char) : Option LineForm := do
  let (name, value) ← declared? text
  if opensValue value then some (.declaration (String.ofList name)) else none

/-- The part of a line that is looked at: without the blanks around it, up to the first
opening brace. -/
def head (line : String) : List Char :=
  (Text.trimmed line.toList).takeWhile (· != '\x7b')

/-- The form of a line, if it has one. -/
def read? (line : String) : Option LineForm :=
  let text := head line
  (functionStatement? text).or <| (functionExpression? text).or <| (prototypeMethod? text).or <|
    (prototypeProperty? text).or <| (method? text).or <| (property? text).or (declaration? text)

/-! ### Evidence -/

/-- The evidence that a form gives. A container is known only at the top level. -/
def evidence (form : LineForm) (topLevel : Bool) : Evidence :=
  let owned (owner : String) : Option String := if topLevel then some owner else none
  match form with
  | .functionStatement name | .functionExpression name =>
    { kind := some .function, name := some name }
  | .prototypeMethod owner name =>
    { kind := some .function, name := some name, container := owned owner,
      isInstanceMember := some true }
  | .prototypeProperty owner name =>
    { kind := some .member, name := some name, container := owned owner,
      isInstanceMember := some true }
  | .method receiver name =>
    { kind := some .function, name := some name, container := owned receiver }
  | .property receiver name =>
    { kind := some .member, name := some name, container := owned receiver }
  | .declaration name => { kind := some .member, name := some name }

end LineForm

/-- The evidence of a line of code. -/
def Evidence.ofLine (line : String) (topLevel : Bool) : Evidence :=
  match LineForm.read? line with
  | none => empty
  | some form => form.evidence topLevel

end DocEntities
