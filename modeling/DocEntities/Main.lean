/-
This file is the program: it takes the arguments, shows the library the part of the disk that a
command can look at, and carries out what comes back. What is on the disk is read once, before
the command runs, so a run sees one state of it.
-/

import DocEntities.Command.Run

open DocEntities

namespace DocEntities.Main

/-! ### What is on the disk -/

/-- How the system words a fault. -/
def reasonOf : IO.Error → String
  | .permissionDenied _ code details | .resourceExhausted _ code details =>
    details ++ " (os error " ++ toString code ++ ")"
  | other => toString other

/-- The bytes of a file. Only texts that a run may ask for are read. The bytes of a file that cannot
be read are no text, so a run that asks for it fails. -/
def readBytes (path name : String) : IO ByteArray := do
  if isSource name || name == Config.fileName then
    try IO.FS.readBinFile path
    catch _ => return ⟨#[0xff]⟩
  else return ByteArray.empty

/-- Reads the entry to which a path leads, a directory without what is in it. -/
def readEntry? (path name : String) : IO (Option Node) := do
  try
    match (← (← IO.FS.realPath path).metadata).type with
    | .dir => return some (.folder .empty)
    | .file => return some (.file (← readBytes path name))
    | _ => return some .special
  catch _ => return none

/-- Reads the directory of a path with everything in it. A link to a directory is not
followed. -/
partial def readDirectory (path : String) : IO Directory := do
  try
    let mut directory := Directory.empty
    for found in ← (← IO.FS.realPath path).readDir do
      let name := found.fileName
      let target := Path.join path name
      let isDirectory ←
        try pure ((← found.path.symlinkMetadata).type == .dir)
        catch _ => pure false
      let entry ←
        if isDirectory then pure (.folder (← readDirectory target))
        else pure ((← readEntry? target name).getD .special)
      directory := directory.put name entry
    return directory
  catch fault => return .unlisted (reasonOf fault) .empty

/-- Adds what is at a place to a disk. -/
def reveal (deep : Bool) (disk : Directory) (location : List String) : IO Directory := do
  match (Node.folder disk).at? location, location.getLast?, deep with
  | _, none, _ => return disk
  | some _, _, false => return disk
  | _, some name, _ =>
    let path := Workspace.pathOf location
    match ← readEntry? path name with
    | some (.folder _) =>
      let inside ← if deep then readDirectory path else pure .empty
      return disk.putAt (.folder inside) location
    | some entry => return disk.putAt entry location
    | none => return disk

/-- The places on the way from the top of the disk to a place. -/
def way (location : List String) : List (List String) :=
  (List.range (location.length + 1)).map location.take

/-- Adds every directory on the way to a place to a disk. -/
def revealWay (disk : Directory) (location : List String) : IO Directory :=
  (way location).foldlM (reveal false) disk

/-- The place to which a path leads from another, as far as its text tells. -/
def placeOf (start : List String) (path : String) : List String :=
  (Path.components path).foldl
    (fun location component =>
      match component with
      | .top => []
      | .here => location
      | .parent => location.dropLast
      | .named name => location ++ [name])
    start

/-- The part of a path in front of its wildcards. -/
def plainPart (path : String) : String :=
  let plain := (Path.pieces path).takeWhile (fun piece => !Glob.isPattern piece)
  let shown := Text.join "/" plain
  if Path.isAbsolute path && shown.isEmpty then "/" else shown

/-- The paths that a command looks at, taken from the working directory. -/
def searched (workspace : Workspace) (command : Command) : List String :=
  match command with
  | .init => []
  | .extract request =>
    match workspace.loadConfig with
    | .error _ => request.paths
    | .ok configured =>
      let base := (configured.root.map workspace.pathUpTo).getD ""
      if request.paths.isEmpty then configured.config.includes.map (Path.join base)
      else request.paths

/-- The disk as far as a command can look at it: the way up from the working directory, where
the configuration is searched, everything below the paths that are searched, and the directory
of the file to write. -/
def readWorkspace (command : Command) : IO Workspace := do
  let location := placeOf [] (← IO.currentDir).toString
  let bare ← revealWay .empty location
  let marks := (way location).flatMap
    (fun above => [above ++ [Config.fileName], above ++ [Workspace.repositoryMark]])
  let marked ← marks.foldlM (reveal false) bare
  let near : Workspace := { disk := marked, location := location }
  let targets := (searched near command).map (fun path => placeOf location (plainPart path))
  let found ← targets.foldlM
    (fun disk target => do reveal true (← revealWay disk target) target) marked
  let outputs := match command with
    | .extract { output := some path, .. } => [placeOf location path]
    | _ => []
  let seen ← outputs.foldlM revealWay found
  return { disk := seen, location := location }

/-! ### Telling the user -/

/-- How the program is used. -/
def usageText : String :=
  "Usage: doclift <COMMAND>\n\n" ++
    "Commands:\n" ++
    "  extract [PATHS]...  Extract documentation entities as JSON\n" ++
    "  init                Create a new .docliftrc.json\n" ++
    "  help                Print this message\n\n" ++
    "Options of extract:\n" ++
    "      --base-url <BASE_URL>  Prefix of the recorded source URLs [env: DOCLIFT_BASE_URL]\n" ++
    "  -o, --output <OUTPUT>      Write to this file\n" ++
    "      --fixed-point          Resolve until no entity kind changes\n" ++
    "      --compact              Print compact JSON\n" ++
    "  -v, --verbose              Print more\n"

/-- The version of the program. -/
def versionText : String := "doclift 0.1.0\n"

/-- What is wrong with arguments. -/
def usageComplaint : Usage → String
  | .help | .version => ""
  | .unknownArgument => "error: unexpected argument\n\n"
  | .unknownCommand => "error: unrecognized subcommand\n\n"
  | .invalidValue => "error: a value is required\n\n"
  | .repeated => "error: an argument cannot be used multiple times\n\n"
  | .needlessValue => "error: unexpected value for an argument\n\n"

/-- What lies behind a failure, in words. -/
def causeText : Cause → String
  | .file fault => fault.reason
  | .json .syntaxError => "syntax error"
  | .json .data => "unexpected data"
  | .json .endOfText => "unexpected end"
  | .pattern invalid => invalid.message

/-- A failure with what lies behind it. -/
def failureText (failure : Failure) : String :=
  match failure.cause? with
  | none => failure.message
  | some cause => failure.message ++ ": " ++ causeText cause

/-- Answers arguments that do not lead to a command. -/
def answerUsage (usage : Usage) : IO Unit :=
  match usage with
  | .help => IO.print usageText
  | .version => IO.print versionText
  | other => IO.eprint (usageComplaint other ++ usageText)

/-- Runs a command and carries out what it did in its session. -/
def carryOut (command : Command) : IO UInt32 := do
  let (result, session) := (← readWorkspace command).perform command
  if let .ok account := result then
    for event in account.events do
      if command.isVerbose || event.level == .warn then IO.eprintln event.line
  if let some (path, text) := session.written then IO.FS.writeFile path text
  IO.print session.output
  match result with
  | .ok account =>
    IO.eprint account.report
    return 0
  | .error failure =>
    IO.eprintln ("Error: " ++ failureText failure)
    return 2

end DocEntities.Main

/-- The program. -/
def main (arguments : List String) : IO UInt32 := do
  match Arguments.read arguments (← IO.getEnv "DOCLIFT_BASE_URL") with
  | .error usage =>
    DocEntities.Main.answerUsage usage
    return usage.status.toUInt32
  | .ok none =>
    DocEntities.Main.answerUsage .help
    return 0
  | .ok (some command) => DocEntities.Main.carryOut command
