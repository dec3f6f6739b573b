/-
This file says where things stand in a source. Lines end at a line feed, at a carriage return
with a line feed, and at a carriage return alone. The text of a line, as it is looked at for
evidence, runs from the start of the line to the next line feed, beyond a carriage return
that stands alone.
-/

namespace DocEntities.Script

/-- A place in a source: the characters before it, and its line, counted from one. -/
structure Position where
  offset : Nat
  line : Nat
  deriving DecidableEq, Repr, Inhabited

/-- Whether a line ends with a character, given what follows it. -/
def endsLine (c : Char) (rest : List Char) : Bool :=
  c == '\n' || (c == '\r' && rest.head? != some '\n')

/-- The text from here to the next line feed. -/
def lineHere (text : List Char) : String :=
  String.ofList (text.takeWhile (· != '\n'))

/-- The texts of the lines that start behind the first one. -/
def laterLines : List Char → List String
  | [] => []
  | c :: rest => if endsLine c rest then lineHere rest :: laterLines rest else laterLines rest

/-- The texts of all lines. -/
def lineTexts (source : List Char) : List String :=
  lineHere source :: laterLines source

end DocEntities.Script
