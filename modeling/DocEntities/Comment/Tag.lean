/-
This file reads single tags. A tag is `@name {types} description`: the name runs up to a
blank or an opening brace, the types stand in braces directly behind it, and the rest is
the description. The at sign may be missing, and everything but the name may be.
-/

import DocEntities.Entity
import DocEntities.Text.Space
import DocEntities.Text.Split

namespace DocEntities

/-- One tag of a comment. -/
structure Tag where
  name : String
  types : Option (List String) := none
  description : Option String := none
  deriving DecidableEq, Repr, Inhabited

namespace Tag

/-- Whether a character may stand in the name of a tag. -/
def isNameChar (c : Char) : Bool :=
  !Text.isSpace c && c != '\x7b'

/-- Whether a character separates two types. -/
def isTypeSeparator (c : Char) : Bool :=
  c == '|' || c == ',' || c == '/'

/-- The types of a type list; a list without any counts as missing. -/
def splitTypes? (list : List Char) : Option (List String) :=
  let pieces := (Text.splitWhere isTypeSeparator list).map Text.trimmed
  let types := (pieces.filter (fun piece => !piece.isEmpty)).map String.ofList
  if types.isEmpty then none else some types

/-- A segment without its at sign. An at sign that no name follows is itself the name. -/
def dropAtSign : List Char → List Char
  | '@' :: c :: rest => if isNameChar c then c :: rest else '@' :: c :: rest
  | text => text

/-- The inside of the braces at the start of a text, and what follows them. -/
def braced? : List Char → Option (List Char × List Char)
  | '\x7b' :: rest =>
    match rest.dropWhile (· != '\x7d') with
    | [] => none
    | _ :: after => some (rest.takeWhile (· != '\x7d'), after)
  | _ => none

/-- Reads a tag from a segment of a comment; there is none if the segment has no name. -/
def read? (segment : String) : Option Tag :=
  let text := dropAtSign (Text.trimmed segment.toList)
  match text.takeWhile isNameChar with
  | [] => none
  | name =>
    let rest := Text.trimStart (text.dropWhile isNameChar)
    match braced? rest with
    | some (inside, after) =>
      some ⟨String.ofList name, splitTypes? inside, Text.nonEmpty? (Text.trimmed after)⟩
    | none =>
      some ⟨String.ofList name, none, Text.nonEmpty? (Text.trimmed rest)⟩

/-- Whether a tag says nothing beyond its name. -/
def isBare (tag : Tag) : Bool :=
  tag.types.isNone && tag.description.isNone

/-! ### Parameters -/

/-- Whether a character behind a type marks the parameter as optional. -/
def isOptionalMark (c : Char) : Bool :=
  c == '?' || c == '='

/-- A type without one optional mark behind it, and whether it had one. -/
def dropOptionalMark (type : List Char) : List Char × Bool :=
  match type.reverse with
  | [] => ([], false)
  | c :: rest => if isOptionalMark c then (rest.reverse, true) else (type, false)

/-- A parameter name without brackets and default value, and whether it had brackets. -/
def dropBrackets (name : List Char) : List Char × Bool :=
  match name with
  | '[' :: _ =>
    let bare := name.filter (fun c => c != '[' && c != ']')
    (bare.takeWhile (· != '='), true)
  | _ => (name, false)

/-- The parameter that a tag describes: the types, then the first word of the description as
the name and the other words, one space apart, as the description. A parameter is optional if
one of its types carries an optional mark or its name stands in brackets. -/
def param? (tag : Tag) : Option Param :=
  if tag.isBare then none
  else
    let types := tag.types.map (List.map (fun type => dropOptionalMark type.toList))
    let marked := (types.getD []).any Prod.snd
    let words := tag.description.map (fun text => Text.words text.toList)
    let name := words.map (fun all => dropBrackets (all.headD []))
    some
      { types := types.map (List.map (fun type => String.ofList type.1))
        name := name.map (fun found => String.ofList found.1)
        description := words.bind (fun all => Text.nonEmpty? (Text.joinWith [' '] all.tail))
        optional := marked || (name.map Prod.snd).getD false }

end Tag

end DocEntities
