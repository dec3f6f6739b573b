/-
This file holds the events that a run reports to its log, and their wording.
-/

import DocEntities.Disk
import DocEntities.Resolution

namespace DocEntities

/-- How loud an event is. -/
inductive Level where
  | warn
  | info
  | debug
  deriving DecidableEq, Repr, Inhabited

/-- The word for a level. -/
def Level.name : Level → String
  | .warn => "WARN"
  | .info => "INFO"
  | .debug => "DEBUG"

/-- Something that a run reports. -/
inductive Event where
  /-- A namepath was documented a second time. -/
  | overridden (collision : Collision)
  /-- Nothing names the code behind the comment that starts on `line`. -/
  | unnamed (line : Nat)
  /-- An entity changed its kind. -/
  | promoted (promotion : Promotion)
  | filesFound (count : Nat)
  | includeMissing (path : String)
  | ignoreInvalid (pattern cause : String)
  | includeInvalid (pattern cause : String)
  /-- Something on the way through a place cannot be looked at. -/
  | unreachable (path reason : String)
  | pathsUnread (count : Nat)
  | configLoaded (path : String)
  | configMissing
  | fileDocumented (path : String) (entities : Nat)
  | resolutionDone (promotions : Nat)
  deriving DecidableEq, Repr, Inhabited

namespace Event

/-- The file of an origin, as a phrase that may follow a line number. -/
def inFile (origin : Origin) : String :=
  match origin.name with
  | none => ""
  | some name => " of " ++ name

/-- The word for a kind that may be missing. -/
def kindWord : Option Kind → String
  | none => "no kind"
  | some kind => kind.name

/-- How loud an event is. -/
def level : Event → Level
  | .overridden _ | .includeMissing _ | .ignoreInvalid _ _ | .includeInvalid _ _
  | .unreachable _ _ | .pathsUnread _ => .warn
  | .filesFound _ | .fileDocumented _ _ => .info
  | .unnamed _ | .promoted _ | .configLoaded _ | .configMissing | .resolutionDone _ => .debug

/-- What an event says. -/
def message : Event → String
  | .overridden collision =>
    "`" ++ collision.id ++ "` documented at line " ++ toString collision.replacement.line ++
      inFile collision.replacement ++ " overrides the definition at line " ++
      toString collision.previous.line ++ inFile collision.previous
  | .unnamed line =>
    "skipping comment at line " ++ toString line ++ ": nothing names the documented code"
  | .promoted promotion =>
    "`" ++ promotion.id ++ "` promoted from " ++ kindWord promotion.before ++ " to " ++
      promotion.after.name
  | .filesFound count => "found " ++ toString count ++ " source files"
  | .includeMissing path => "Include path does not exist: " ++ path
  | .ignoreInvalid pattern cause => "Invalid ignore pattern '" ++ pattern ++ "': " ++ cause
  | .includeInvalid pattern cause => "Invalid glob pattern '" ++ pattern ++ "': " ++ cause
  | .unreachable path reason =>
    "Cannot access path: IO error for operation on " ++ path ++ ": " ++ reason
  | .pathsUnread count => toString count ++ " paths could not be read"
  | .configLoaded path => "loaded config from " ++ path
  | .configMissing => "no config file found, using defaults"
  | .fileDocumented path entities =>
    path ++ ": " ++ toString entities ++ " documented entities"
  | .resolutionDone promotions =>
    "resolution made " ++ toString promotions ++ " kind promotions"

/-- An event as a line of the log. -/
def line (event : Event) : String :=
  event.level.name ++ " " ++ event.message

end Event

end DocEntities
