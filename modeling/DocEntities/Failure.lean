/-
This file holds the ways in which a run can fail, their wording, and the deeper cause where
there is one.
-/

import DocEntities.Disk
import DocEntities.Glob
import DocEntities.Json.Reader

namespace DocEntities

/-- The two lists of a configuration that hold patterns. -/
inductive PatternList where
  | ignores
  | includes
  deriving DecidableEq, Repr, Inhabited

/-- The name of a list of patterns. -/
def PatternList.name : PatternList → String
  | .ignores => "ignores"
  | .includes => "includes"

/-- Why a run failed. -/
inductive Failure where
  | sourceInvalid (name : String)
  | fileUnreadable (path : String) (fault : FileFault)
  | fileUnwritable (path : String) (fault : FileFault)
  | configUnreadable (path : String) (fault : FileFault)
  | configInvalid (path : String) (fault : Json.Fault)
  | patternInvalid (list : PatternList) (pattern : String) (invalid : Glob.Invalid)
  | alreadyExists (path : String)
  deriving DecidableEq, Repr, Inhabited

/-- What lies behind a failure. -/
inductive Cause where
  | file (fault : FileFault)
  | json (fault : Json.Fault)
  | pattern (invalid : Glob.Invalid)
  deriving DecidableEq, Repr, Inhabited

namespace Failure

/-- A character of a quoted path. -/
def quoteChar (c : Char) : List Char :=
  if c == '"' || c == '\\' then ['\\', c]
  else if c == '\n' then ['\\', 'n']
  else if c == '\t' then ['\\', 't']
  else if c == '\r' then ['\\', 'r']
  else if c < ' ' || c == '\x7f' then
    ['\\', 'u', '\x7b'] ++ Nat.toDigits 16 c.toNat ++ ['\x7d']
  else [c]

/-- A path between quotes. -/
def quotePath (path : String) : String :=
  "\"" ++ String.ofList (path.toList.flatMap quoteChar) ++ "\""

/-- What a failure says. -/
def message : Failure → String
  | .sourceInvalid name => "Failed to parse " ++ name
  | .fileUnreadable path _ => "Failed to read " ++ path
  | .fileUnwritable path _ => "Failed to write " ++ path
  | .configUnreadable path _ => "Failed to read config file: " ++ quotePath path
  | .configInvalid path _ => "Failed to parse config file: " ++ quotePath path
  | .patternInvalid list pattern _ =>
    "Invalid glob pattern in '" ++ list.name ++ "': \"" ++ pattern ++ "\""
  | .alreadyExists path => path ++ " already exists"

/-- What lies behind a failure, if it is known. -/
def cause? : Failure → Option Cause
  | .fileUnreadable _ fault | .fileUnwritable _ fault | .configUnreadable _ fault =>
    some (.file fault)
  | .configInvalid _ fault => some (.json fault)
  | .patternInvalid _ _ invalid => some (.pattern invalid)
  | .sourceInvalid _ | .alreadyExists _ => none

end Failure

end DocEntities
