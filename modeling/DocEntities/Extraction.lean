/-
This file takes a source to its entities: it reads the source, attaches its comments to its
code, and enters what was found into a table, whose kinds are corrected last.
-/

import DocEntities.Failure
import DocEntities.Script.Program
import DocEntities.Walk

namespace DocEntities

/-- What a walk needs to know of a source that has been read. -/
def Surroundings.ofParsed (parsed : Script.Parsed) (options : Options) : Surroundings where
  comments := CommentIndex.collect parsed.comments
  lineText line := (parsed.lines[line - 1]?).getD ""
  options := options

/-- What is found in a source that has been read. -/
def findingsOf (parsed : Script.Parsed) (options : Options) : List Finding :=
  (Outline.ofProgram parsed.program).findings (.ofParsed parsed options)

/-- The name of a source that has none. -/
def anonymousSource : String := "<source>"

/-- Whether elements may be written as expressions in a source of this name. -/
def allowsElements (name : String) : Bool :=
  (Text.beforeEnd? ".jsx".toList name.toList).isSome

/-- Reads a source of a name. -/
def parseSource (code name : String) : Except Failure Script.Parsed :=
  match Script.parse? code (allowsElements name) with
  | some parsed => .ok parsed
  | none => .error (.sourceInvalid name)

/-- What is found in a source. -/
def extractFindings (code : String) (options : Options) : Except Failure (List Finding) := do
  let parsed ← parseSource code (options.sourceName.getD anonymousSource)
  return findingsOf parsed options

/-- The table of a source, its kinds not yet corrected. -/
def extractSource (code : String) (options : Options) : Except Failure Table := do
  return Table.ofFindings (← extractFindings code options)

/-- The table of a source. -/
def documentSource (code : String) (options : Options) : Except Failure Table := do
  return ((← extractSource code options).resolve options.resolution).table

end DocEntities
