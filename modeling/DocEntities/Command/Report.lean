/-
This file words what the program tells its user about a run. The entities themselves go to the
output; the report stands beside them, so that the output stays clean.
-/

import DocEntities.Config
import DocEntities.Table

namespace DocEntities

/-- What an extraction did. -/
structure Summary where
  files : Nat
  entities : Nat
  collisions : List Collision
  /-- The file that was written, if there is one. -/
  output : Option String
  deriving DecidableEq, Repr, Inhabited

namespace Report

/-- The mark in front of what succeeded. -/
def successMark : String := "✓"

/-- Where an entity is defined. -/
def place (origin : Origin) : String :=
  match origin.name with
  | some name => name ++ ":" ++ toString origin.line
  | none => "line " ++ toString origin.line

/-- The line on a namepath that was written a second time. -/
def collisionLine (collision : Collision) : String :=
  "warning: `" ++ collision.id ++ "` at " ++ place collision.replacement ++
    " overrides the definition at " ++ place collision.previous ++ "\n"

/-- A count, and the word for what is counted. -/
def counted (count : Nat) (one many : String) : String :=
  toString count ++ " " ++ (if count = 1 then one else many)

/-- The line on what was extracted. -/
def countLine (summary : Summary) : String :=
  successMark ++ " Extracted " ++ counted summary.entities "entity" "entities" ++ " from " ++
    counted summary.files "source file" "source files" ++ "\n"

/-- The line on the file that was written. -/
def outputLine (output : Option String) : String :=
  match output with
  | none => ""
  | some path => "  --> " ++ path ++ "\n"

/-- The report on an extraction. -/
def ofSummary (summary : Summary) : String :=
  String.join (summary.collisions.map collisionLine) ++ countLine summary ++
    outputLine summary.output

/-- The report on a configuration that was made. -/
def configCreated : String :=
  successMark ++ " Created " ++ Config.fileName ++ "\n"

end Report

end DocEntities
