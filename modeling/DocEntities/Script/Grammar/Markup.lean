/-
This file reads elements that are written as expressions. Their tags and texts have a grammar
of their own, so they are read from the characters of the source; only the expressions in
braces go through the tokens again. What matters of an element are those expressions.
-/

import DocEntities.Script.Grammar.Expression

namespace DocEntities.Script.Grammar

open DocEntities.Script.Parser

/-- The place behind blanks and comments. -/
def behindGap (spot : Spot) : Parser Spot := do
  let cursor ← get
  let gap ← given (Gap.pass cursor.bound ⟨spot, false, cursor.comments⟩)
  set { cursor with comments := gap.comments }
  return gap.spot

/-- A character of the name of a tag or an attribute. -/
def isTagChar (c : Char) : Bool :=
  Text.isIdentifierPart c || c == '-' || c == '.' || c == ':'

/-- Whether a text can be the name of a tag: names with dots or a colon between them. The name of
a fragment is empty. -/
def isTagName (name : List Char) : Bool :=
  name.isEmpty ||
    (Text.splitWhere (fun c => c == '.' || c == ':') name).all
      (fun piece => (piece.head?.map Text.isIdentifierStart).getD false)

/-- The name at a place, and the place behind it. -/
def tagName (spot : Spot) : List Char × Spot :=
  let name := spot.rest.takeWhile isTagChar
  (name, spot.advance name.length)

/-- The expression in braces at a place, given the place behind the opening brace, and the place
behind the closing one. Nothing or a comment alone may stand there. -/
def bracedPart (below : Grammar) (context : Context) (spot : Spot) :
    Parser (List Part × Spot) := do
  seek spot
  if ← atSign "\x7d" then return ([], (← get).after)
  else
    let _ ← takeSign "..."
    let expr ← below.expression context.inner
    if ← atSign "\x7d" then return ([.expr expr], (← get).after) else failure

/-- Attributes given by an expression, given the place behind the opening brace. -/
def spreadAttributes (below : Grammar) (context : Context) (spot : Spot) :
    Parser (List Part × Spot) := do
  seek spot
  sign "..."
  let expr ← below.assignment context.inner
  if ← atSign "\x7d" then return ([.expr expr], (← get).after) else failure

/-- The value of an attribute, given the place behind the equals sign. Braces hold an
expression. -/
def attributeValue (below : Grammar) (context : Context) (spot : Spot) :
    Parser (List Part × Spot) := do
  match spot.rest with
  | '\x7b' :: _ =>
    match ← below.bracedPart context (spot.advance 1) with
    | ([], _) => failure
    | found => return found
  | '<' :: _ => below.element context spot
  | quote :: rest =>
    if quote == '"' || quote == '\'' then
      let inside := rest.takeWhile (· != quote)
      if inside.length < rest.length then return ([], spot.advance (inside.length + 2))
      else failure
    else failure
  | [] => failure

/-- The expressions of attributes up to the end of the tag, and whether the element ends there. -/
def attributesHere (below : Grammar) (context : Context) (start : Spot) :
    Parser (List Part × Bool × Spot) := do
  let spot ← behindGap start
  match spot.rest with
  | '>' :: _ => return ([], false, spot.advance 1)
  | '/' :: _ =>
    let close ← behindGap (spot.advance 1)
    if close.rest.head? == some '>' then return ([], true, close.advance 1) else failure
  | '\x7b' :: _ =>
    let (parts, behind) ← below.spreadAttributes context (spot.advance 1)
    let (more, ends, last) ← below.attributes context behind
    return (parts ++ more, ends, last)
  | _ =>
    let (name, behind) := tagName spot
    if name.isEmpty then failure
    else
      let sign ← behindGap behind
      if sign.rest.head? == some '=' then
        let (parts, valueEnd) ← below.attributeValue context (← behindGap (sign.advance 1))
        let (more, ends, last) ← below.attributes context valueEnd
        return (parts ++ more, ends, last)
      else below.attributes context sign

/-- The expressions of what stands between two tags of a name, and the place behind the closing
tag. -/
def childrenHere (below : Grammar) (context : Context) (tag : List Char) (start : Spot) :
    Parser (List Part × Spot) := do
  let text := start.rest.takeWhile (fun c => c != '\x7b' && c != '<')
  let spot := start.advance text.length
  match spot.rest with
  | '\x7b' :: _ =>
    let (parts, behind) ← below.bracedPart context (spot.advance 1)
    let (more, last) ← below.children context tag behind
    return (parts ++ more, last)
  | '<' :: _ =>
    let inside ← behindGap (spot.advance 1)
    if inside.rest.head? == some '/' then
      let (name, named) := tagName (← behindGap (inside.advance 1))
      let close ← behindGap named
      if name == tag && close.rest.head? == some '>' then return ([], close.advance 1)
      else failure
    else
      let (parts, behind) ← below.element context spot
      let (more, last) ← below.children context tag behind
      return (parts ++ more, last)
  | _ => failure

/-- The expressions of an element, and the place behind it. A fragment has no attributes. -/
def elementHere (below : Grammar) (context : Context) (spot : Spot) :
    Parser (List Part × Spot) := do
  let (name, named) := tagName (← behindGap (spot.advance 1))
  if !isTagName name || (name.isEmpty && named.rest.head? != some '>') then failure
  else
    let (parts, ends, behind) ← below.attributes context named
    if ends then return (parts, behind)
    else
      let (more, last) ← below.children context name behind
      return (parts ++ more, last)

end DocEntities.Script.Grammar
