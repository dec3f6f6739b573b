/-
This file writes JSON. A value is a tree in which the members of an object keep their order
and may share a key; a layout says what stands between the parts, nothing at all or line
breaks and two spaces of indentation for each level. Only the characters that JSON demands
are escaped, everything else is written as it is.
-/

namespace DocEntities

/-- A JSON value to be written. -/
inductive Json where
  | flag (value : Bool)
  | number (value : Nat)
  | text (value : String)
  | list (items : List Json)
  | object (members : List (String × Json))
  deriving Inhabited

namespace Json

/-! ### Texts -/

/-- The digit with a value below sixteen. -/
def hexDigit (value : Nat) : Char :=
  if value < 10 then Char.ofNat ('0'.toNat + value) else Char.ofNat ('a'.toNat + (value - 10))

/-- A character as it stands between quotes. -/
def escapeChar (c : Char) : List Char :=
  if c == '"' then ['\\', '"']
  else if c == '\\' then ['\\', '\\']
  else if c.toNat < 0x20 then
    if c.toNat == 8 then ['\\', 'b']
    else if c.toNat == 9 then ['\\', 't']
    else if c.toNat == 10 then ['\\', 'n']
    else if c.toNat == 12 then ['\\', 'f']
    else if c.toNat == 13 then ['\\', 'r']
    else ['\\', 'u', '0', '0', hexDigit (c.toNat / 16), hexDigit (c.toNat % 16)]
  else [c]

/-- A text between quotes. -/
def quote (text : String) : List Char :=
  '"' :: (text.toList.flatMap escapeChar ++ ['"'])

/-! ### Layout -/

/-- What stands between the parts of a value. -/
structure Layout where
  /-- What stands before a part at a depth. -/
  lineBreak : Nat → List Char
  /-- What stands between a key and its value. -/
  colon : List Char

/-- Nothing that could be left out. -/
def Layout.compact : Layout where
  lineBreak _ := []
  colon := [':']

/-- Each part on its own line, two spaces further in for each level. -/
def Layout.pretty : Layout where
  lineBreak depth := '\n' :: List.replicate (2 * depth) ' '
  colon := [':', ' ']

mutual

/-- The text of a value at a depth. -/
def write (layout : Layout) (depth : Nat) : Json → List Char
  | .flag true => "true".toList
  | .flag false => "false".toList
  | .number value => Nat.toDigits 10 value
  | .text value => quote value
  | .list [] => ['[', ']']
  | .list (item :: items) =>
    '[' :: (layout.lineBreak (depth + 1) ++ write layout (depth + 1) item ++
      writeItems layout depth items)
  | .object [] => ['\x7b', '\x7d']
  | .object ((key, value) :: members) =>
    '\x7b' :: (layout.lineBreak (depth + 1) ++ quote key ++ layout.colon ++
      write layout (depth + 1) value ++ writeMembers layout depth members)

/-- The items of a list behind the first one, and the end of the list. -/
def writeItems (layout : Layout) (depth : Nat) : List Json → List Char
  | [] => layout.lineBreak depth ++ [']']
  | item :: items =>
    ',' :: (layout.lineBreak (depth + 1) ++ write layout (depth + 1) item ++
      writeItems layout depth items)

/-- The members of an object behind the first one, and the end of the object. -/
def writeMembers (layout : Layout) (depth : Nat) : List (String × Json) → List Char
  | [] => layout.lineBreak depth ++ ['\x7d']
  | (key, value) :: members =>
    ',' :: (layout.lineBreak (depth + 1) ++ quote key ++ layout.colon ++
      write layout (depth + 1) value ++ writeMembers layout depth members)

end

/-- The text of a value in a layout. -/
def render (value : Json) (layout : Layout) : String :=
  String.ofList (write layout 0 value)

/-- The member of an object that is left out if there is nothing to say. -/
def whenSome (key : String) (value : Option Json) : List (String × Json) :=
  match value with
  | none => []
  | some found => [(key, found)]

/-- The member of an object that is written only if it holds. -/
def whenTrue (key : String) (value : Bool) : List (String × Json) :=
  if value then [(key, .flag true)] else []

/-- A list of texts. -/
def texts (values : List String) : Json :=
  .list (values.map .text)

end Json

end DocEntities
