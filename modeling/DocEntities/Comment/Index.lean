/-
This file finds the documentation comments of a source and the line that each documents. A
documentation comment is a block comment that opens with a second star; it documents the line
behind the one it ends on. Comments may be handed over in any order and more than once. Of
two that end on one line the later one counts.
-/

import DocEntities.Comment.Markers
import DocEntities.Script.Position

namespace DocEntities

/-- A comment of a source. -/
structure SourceComment where
  isBlock : Bool
  /-- Where the comment opens. -/
  start : Script.Position
  /-- The line of its last character. -/
  endLine : Nat
  /-- What stands between its delimiters. -/
  text : String
  deriving DecidableEq, Repr, Inhabited

/-- Whether a comment is a documentation comment. -/
def SourceComment.isDoc (comment : SourceComment) : Bool :=
  comment.isBlock && comment.text.toList.head? == some '*'

/-- A documentation comment with its marks taken out. -/
structure DocComment where
  text : String
  startLine : Nat
  endLine : Nat
  deriving DecidableEq, Repr, Inhabited

/-- The documentation comment that a comment is. -/
def SourceComment.toDoc (comment : SourceComment) : DocComment :=
  ⟨Comment.stripMarkers comment.text, comment.start.line, comment.endLine⟩

/-- The documentation comments of a source by the line they document, in ascending order. -/
structure CommentIndex where
  entries : List (Nat × DocComment) := []
  deriving DecidableEq, Repr, Inhabited

namespace CommentIndex

/-- Puts a comment under the line it documents, in the place of an earlier one. -/
def put (line : Nat) (doc : DocComment) : List (Nat × DocComment) → List (Nat × DocComment)
  | [] => [(line, doc)]
  | (other, old) :: rest =>
    if line < other then (line, doc) :: (other, old) :: rest
    else if line = other then (line, doc) :: rest
    else (other, old) :: put line doc rest

/-- Of comments in a row that start at one place, keeps the first. -/
def dropCopies : List SourceComment → List SourceComment
  | [] => []
  | first :: rest =>
    match dropCopies rest with
    | [] => [first]
    | second :: more =>
      if first.start.offset = second.start.offset then first :: more
      else first :: second :: more

/-- The documentation comments among some comments, each once, by where they start. -/
def docs (comments : List SourceComment) : List SourceComment :=
  dropCopies ((comments.filter SourceComment.isDoc).mergeSort
    (fun first second => first.start.offset ≤ second.start.offset))

/-- The index of the documentation comments among some comments. -/
def collect (comments : List SourceComment) : CommentIndex where
  entries := (docs comments).foldl
    (fun entries comment => put (comment.endLine + 1) comment.toDoc entries) []

/-- The comment that documents a line. -/
def preceding? (index : CommentIndex) (line : Nat) : Option DocComment :=
  (index.entries.find? (fun entry => entry.1 == line)).map Prod.snd

/-- How many lines are documented. -/
def size (index : CommentIndex) : Nat :=
  index.entries.length

end CommentIndex

end DocEntities
