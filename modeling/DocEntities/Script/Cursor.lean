/-
This file moves through a source token by token. A cursor stands on a token and knows where
the token starts, whether a line ended before it, and what follows it; on its way it collects
the comments it passes. A parser takes a cursor further and gives what it read, or fails if
the source does not go on as the grammar wants.
-/

import DocEntities.Comment.Index
import DocEntities.Script.Token

namespace DocEntities.Script

/-- A place in a source and the text from there on. -/
structure Spot where
  rest : List Char
  position : Position
  deriving Inhabited

/-- The place some characters further on. -/
def Spot.advance : Nat → Spot → Spot
  | 0, spot => spot
  | count + 1, spot =>
    match spot.rest with
    | [] => spot
    | c :: rest =>
      let line := if endsLine c rest then spot.position.line + 1 else spot.position.line
      advance count ⟨rest, ⟨spot.position.offset + 1, line⟩⟩

/-! ### Blanks and comments -/

/-- What lies between two tokens. -/
structure Gap where
  /-- Where the next token starts. -/
  spot : Spot
  /-- Whether a line ends in it. -/
  newline : Bool
  /-- The comments passed so far, the last one first. -/
  comments : List SourceComment

/-- The inside of a block comment, given what follows its opening. -/
def blockComment? : List Char → Option (List Char)
  | [] => none
  | '*' :: '/' :: _ => some []
  | c :: rest => (blockComment? rest).map (c :: ·)

/-- The text up to the end of the line. -/
def restOfLine (text : List Char) : List Char :=
  text.takeWhile (fun c => !isLineTerminator c)

/-- Passes a comment that runs to the end of the line, whose opening takes `opening` characters. -/
def Gap.passLine (gap : Gap) (opening : Nat) : Gap :=
  let text := restOfLine (gap.spot.rest.drop opening)
  { gap with
    spot := gap.spot.advance (opening + text.length)
    comments :=
      ⟨false, gap.spot.position, gap.spot.position.line, String.ofList text⟩ :: gap.comments }

/-- Passes a block comment with the given inside. -/
def Gap.passBlock (gap : Gap) (inside : List Char) : Gap :=
  let last := gap.spot.advance (inside.length + 3)
  { gap with
    spot := last.advance 1
    newline := gap.newline || inside.any isLineTerminator
    comments :=
      ⟨true, gap.spot.position, last.position.line, String.ofList inside⟩ :: gap.comments }

/-- Passes blanks and comments, the arrow-like ones of old web pages included; the closing one
of those counts only where a line has just begun. Every step takes a character at least, so the
length of the text bounds the steps. -/
def Gap.pass : Nat → Gap → Option Gap
  | 0, gap => some gap
  | bound + 1, gap =>
    match gap.spot.rest with
    | [] => some gap
    | '/' :: '/' :: _ => (gap.passLine 2).pass bound
    | '/' :: '*' :: rest =>
      match blockComment? rest with
      | none => none
      | some inside => (gap.passBlock inside).pass bound
    | '<' :: '!' :: '-' :: '-' :: _ => (gap.passLine 4).pass bound
    | '-' :: '-' :: '>' :: _ => if gap.newline then (gap.passLine 3).pass bound else some gap
    | c :: _ =>
      if isLineTerminator c then
        Gap.pass bound { gap with spot := gap.spot.advance 1, newline := true }
      else if isScriptBlank c then Gap.pass bound { gap with spot := gap.spot.advance 1 }
      else some gap

/-! ### Cursors -/

/-- A cursor on a token. -/
structure Cursor where
  token : Token
  /-- Whether a line ended before the token. -/
  newline : Bool
  /-- Where the token starts. -/
  here : Spot
  /-- What follows the token. -/
  after : Spot
  /-- The comments passed so far, the last one first. -/
  comments : List SourceComment
  /-- At least the number of characters of the source. -/
  bound : Nat
  /-- Whether elements may be written as expressions. -/
  elements : Bool

/-- Reads a part of a source. -/
abbrev Parser (α : Type) : Type :=
  StateT Cursor Option α

/-- The token behind a gap. -/
def Cursor.onto (cursor : Cursor) (gap : Gap) : Option Cursor := do
  let (token, taken) ← token? cursor.bound gap.spot.rest
  return { cursor with
    token := token
    newline := gap.newline
    here := gap.spot
    after := gap.spot.advance taken
    comments := gap.comments }

/-- The next token from a place on. -/
def Cursor.seek (cursor : Cursor) (spot : Spot) : Option Cursor := do
  let gap ← Gap.pass cursor.bound ⟨spot, false, cursor.comments⟩
  cursor.onto gap

/-- The first token of a source. A first line that names an interpreter does not count. -/
def Cursor.first? (source : List Char) (elements : Bool) : Option Cursor := do
  let opened : Spot := ⟨source, ⟨0, 1⟩⟩
  let spot :=
    match source with
    | '#' :: '!' :: rest => opened.advance (2 + (restOfLine rest).length)
    | _ => opened
  let cursor : Cursor :=
    { token := .done, newline := true, here := spot, after := spot, comments := [],
      bound := source.length + 1, elements := elements }
  let gap ← Gap.pass cursor.bound ⟨spot, true, []⟩
  cursor.onto gap

namespace Parser

/-- Goes to the next token from a place on. -/
def seek (spot : Spot) : Parser Unit :=
  fun cursor => (cursor.seek spot).map (fun next => ((), next))

/-- Goes to the next token. -/
def next : Parser Unit := do
  seek (← get).after

/-- The token behind the current one, which stays. -/
def peek : Parser Cursor := do
  let cursor ← get
  match cursor.seek cursor.after with
  | none => failure
  | some found => return found

/-- Where the current token starts. -/
def position : Parser Position := do
  return (← get).here.position

/-- Whether a line ended before the current token. -/
def onNewLine : Parser Bool := do
  return (← get).newline

end Parser

namespace Token

/-- Whether a token is a given sign. -/
def isSign (token : Token) (text : String) : Bool :=
  token == .sign text

/-- Whether a token is one of some signs. -/
def isOneOf (token : Token) (texts : List String) : Bool :=
  match token with
  | .sign found => texts.contains found
  | _ => false

/-- Whether a token is a given word, without escapes. -/
def isWord (token : Token) (name : String) : Bool :=
  token == .word name false

/-- The name that a token is, if it is one and not a reserved word. -/
def name? : Token → Option String
  | .word found _ => if reservedWords.contains found then none else some found
  | _ => none

end Token

namespace Parser

/-- Whether the current token is a given sign. -/
def atSign (text : String) : Parser Bool := do
  return (← get).token.isSign text

/-- Whether the current token is a given word. -/
def atWord (name : String) : Parser Bool := do
  return (← get).token.isWord name

/-- Takes a sign if it is there. -/
def takeSign (text : String) : Parser Bool := do
  if ← atSign text then
    next
    return true
  else return false

/-- Takes a word if it is there. -/
def takeWord (name : String) : Parser Bool := do
  if ← atWord name then
    next
    return true
  else return false

/-- Takes a sign, which must be there. -/
def sign (text : String) : Parser Unit := do
  if ← takeSign text then return () else failure

/-- Takes a word, which must be there. -/
def word (name : String) : Parser Unit := do
  if ← takeWord name then return () else failure

/-- Takes a name. -/
def name : Parser String := do
  match (← get).token.name? with
  | some found =>
    next
    return found
  | none => failure

/-- The end of a statement: a semicolon, or a place where one may be left out. -/
def semicolon : Parser Unit := do
  let cursor ← get
  if cursor.token.isSign ";" then next
  else if cursor.token.isSign "\x7d" || cursor.token == .done || cursor.newline then return ()
  else failure

end Parser

end DocEntities.Script
