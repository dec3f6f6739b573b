/-
This file runs commands. A command works in a session, which holds the disk as it is and what went
to the output; what a command has done stays done if it fails later. An extraction reads every
source before it writes anything, so a source that cannot be read leaves the session as it was.
-/

import DocEntities.Batch
import DocEntities.Command.Arguments
import DocEntities.Command.Report
import DocEntities.ConfigFile
import DocEntities.Scan

namespace DocEntities

/-! ### Sessions -/

/-- Where a run stands. -/
structure Session where
  workspace : Workspace
  /-- The file that was written, and its text. -/
  written : Option (String × String) := none
  /-- What went to the output. -/
  output : String := ""
  deriving Inhabited

/-- A part of a run. It gives a value or fails, and leaves a session either way. -/
abbrev Action := ExceptT Failure (StateM Session)

namespace Action

/-- Sends a text to the output. -/
def print (text : String) : Action Unit :=
  modify fun session => { session with output := session.output ++ text }

/-- Writes a file. -/
def writeFile (path text : String) : Action Unit := do
  match (← get).workspace.writeText path text with
  | .ok changed =>
    modify fun session => { session with workspace := changed, written := some (path, text) }
  | .error fault => throw (.fileUnwritable path fault)

end Action

/-- What a command tells its user. -/
structure Account where
  report : String
  events : List Event := []
  deriving DecidableEq, Repr, Inhabited

/-! ### Extraction -/

namespace Workspace

/-- The path that leads from the working directory up to a directory above it: one step for
each level, and no text at all if it is the working directory. -/
def pathUpTo (workspace : Workspace) (root : List String) : String :=
  Text.join "/" (List.replicate (workspace.location.length - root.length) "..")

/-- Collects the files of a request. Paths of the request are taken from the working directory
and replace what the configuration includes, which is taken from its own directory. -/
def scanRequest (workspace : Workspace) (request : Request) (configured : Configured) : Scan :=
  if request.paths.isEmpty then
    let base :=
      match configured.root with
      | none => ""
      | some root => workspace.pathUpTo root
    workspace.scan base configured.config.includes configured.config.ignores
  else workspace.scan "" request.paths configured.config.ignores

/-- The event for the configuration that holds. -/
def configEvent (configured : Configured) : Event :=
  match configured.root with
  | none => .configMissing
  | some root => .configLoaded (pathOf (root ++ [Config.fileName]))

/-- The events of a search, with a warning if anything was skipped. -/
def scanEvents (scan : Scan) : List Event :=
  scan.events ++ if scan.skipped = 0 then [] else [.pathsUnread scan.skipped]

/-- The options of a request: those of the configuration, unless the request says more. -/
def requestOptions (request : Request) (config : Config) : Options :=
  if request.fixedPoint then { config.options with resolution := .fixedPoint }
  else config.options

/-- The text of a table. -/
def tableText (request : Request) (table : Table) : String :=
  table.toJson.render (if request.compact then Json.Layout.compact else Json.Layout.pretty) ++
    "\n"

/-- What an extraction did. -/
def summarise (request : Request) (batch : Batch) : Summary where
  files := batch.files
  entities := batch.table.size
  collisions := batch.table.collisions
  output := request.output

end Workspace

namespace Action

/-- Extracts the entities of a project. -/
def extract (request : Request) : Action Account := do
  let workspace := (← get).workspace
  let configured ← workspace.loadConfig
  let scan := workspace.scanRequest request configured
  let batch ← workspace.documentFiles scan.files
    (Workspace.requestOptions request configured.config)
    (request.baseUrl <|> configured.config.baseUrl)
  let text := Workspace.tableText request batch.table
  match request.output with
  | none => print text
  | some path => writeFile path text
  return {
    report := Report.ofSummary (Workspace.summarise request batch)
    events :=
      Workspace.configEvent configured :: (Workspace.scanEvents scan ++ batch.events) }

/-! ### New configurations -/

/-- Makes a configuration in the working directory, unless there is one. -/
def createConfig : Action Account := do
  if (← get).workspace.exists? Config.fileName then throw (.alreadyExists Config.fileName)
  writeFile Config.fileName Config.defaultText
  return { report := Report.configCreated }

/-- What a command does. -/
def ofCommand : Command → Action Account
  | .extract request => extract request
  | .init => createConfig

end Action

/-! ### Runs -/

/-- A session that was followed through to the end of a command. -/
structure Outcome extends Session, Account
  deriving Inhabited

namespace Workspace

/-- Where a run starts. -/
def session (workspace : Workspace) : Session :=
  { workspace := workspace }

/-- Runs a command, with what it leaves behind whether or not it fails. -/
def perform (workspace : Workspace) (command : Command) : Except Failure Account × Session :=
  (Action.ofCommand command).run workspace.session

/-- Runs a command. -/
def run (workspace : Workspace) (command : Command) : Except Failure Outcome :=
  match workspace.perform command with
  | (.ok account, session) => .ok ⟨session, account⟩
  | (.error failure, _) => .error failure

end Workspace

/-- Whether a command asks to be told everything. -/
def Command.isVerbose : Command → Bool
  | .extract request => request.verbose
  | .init => false

end DocEntities
