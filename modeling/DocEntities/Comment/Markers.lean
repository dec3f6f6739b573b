/-
This file takes the comment marks out of a block comment. The star that makes it a
documentation comment goes first; then each line loses the star at its start, with the
spaces and tabs before it and one space behind it.
-/

import DocEntities.Text.Space
import DocEntities.Text.Split

namespace DocEntities.Comment

/-- A line without the star at its start, if it has one. -/
def dropLineMarker (line : List Char) : List Char :=
  match line.dropWhile Text.isInlineBlank with
  | '*' :: ' ' :: rest => rest
  | '*' :: rest => rest
  | _ => line

/-- A comment without the star that opens it, if it has one. -/
def dropOpeningStar : List Char → List Char
  | '*' :: rest => rest
  | text => text

/-- The text of a block comment, given what stands between its delimiters. -/
def stripMarkers (raw : String) : String :=
  let lines := Text.splitWhere (· == '\n') (dropOpeningStar raw.toList)
  String.ofList (Text.joinWith ['\n'] (lines.map dropLineMarker))

end DocEntities.Comment
