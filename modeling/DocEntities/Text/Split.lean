/-
This file cuts texts into pieces and puts them together again. Every cut keeps the
empty pieces, so the pieces joined by the separator give the text back; the callers
drop empty pieces where they do not count.
-/

namespace DocEntities.Text

/-- Puts a character in front of the first piece. -/
def consFirst (c : Char) : List (List Char) → List (List Char)
  | [] => [[c]]
  | piece :: pieces => (c :: piece) :: pieces

/-- The pieces between the characters that satisfy `separates`. -/
def splitWhere (separates : Char → Bool) : List Char → List (List Char)
  | [] => [[]]
  | c :: rest =>
    if separates c then [] :: splitWhere separates rest
    else consFirst c (splitWhere separates rest)

/-- The pieces between the occurrences of two characters in a row. -/
def splitPair (first second : Char) : List Char → List (List Char)
  | [] => [[]]
  | [c] => [[c]]
  | c :: d :: rest =>
    if c == first && d == second then [] :: splitPair first second rest
    else consFirst c (splitPair first second (d :: rest))

/-- The pieces with the separator between them. -/
def joinWith (separator : List Char) : List (List Char) → List Char
  | [] => []
  | [piece] => piece
  | piece :: pieces => piece ++ separator ++ joinWith separator pieces

/-- What stands in front of the first occurrence of two characters in a row. -/
def beforePair (first second : Char) (text : List Char) : List Char :=
  (splitPair first second text).headD []

/-- A string cut at every occurrence of a character. -/
def splitOnChar (separator : Char) (text : String) : List String :=
  (splitWhere (· == separator) text.toList).map String.ofList

/-- Strings with a separator between them. -/
def join (separator : String) : List String → String
  | [] => ""
  | [piece] => piece
  | piece :: pieces => piece ++ separator ++ join separator pieces

/-- What follows `start` in `text`, if `text` starts with it. -/
def afterStart? : List Char → List Char → Option (List Char)
  | [], text => some text
  | _ :: _, [] => none
  | c :: start, d :: text => if c == d then afterStart? start text else none

/-- What stands before `ending` in `text`, if `text` ends with it. -/
def beforeEnd? (ending text : List Char) : Option (List Char) :=
  (afterStart? ending.reverse text.reverse).map List.reverse

end DocEntities.Text
