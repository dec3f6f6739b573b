/-
This file reads the arguments of the command line. An argument that names an option waits for
its value, and paths given in a row belong together; such an occurrence is taken in when the
next one is recognised or the arguments end, and only then are its values checked. So of two
mistakes the one that is recognised first counts.
-/

namespace DocEntities

/-- Why arguments do not lead to a command. -/
inductive Usage where
  /-- The user asked for help. -/
  | help
  /-- The user asked for the version. -/
  | version
  | unknownArgument
  | unknownCommand
  /-- A value is missing, or empty where it must not be. -/
  | invalidValue
  /-- An option or switch is given twice. -/
  | repeated
  /-- A switch is given a value. -/
  | needlessValue
  deriving DecidableEq, Repr, Inhabited

/-- The exit status of a program whose arguments do not lead to a command. -/
def Usage.status : Usage → Nat
  | .help | .version => 0
  | _ => 2

/-- What is to be extracted, and how it is to be written. -/
structure Request where
  /-- The paths to look at instead of those of the configuration. -/
  paths : List String := []
  baseUrl : Option String := none
  /-- The file to write to. -/
  output : Option String := none
  fixedPoint : Bool := false
  compact : Bool := false
  verbose : Bool := false
  deriving DecidableEq, Repr, Inhabited

/-- What the program can be told to do. -/
inductive Command where
  | extract (request : Request)
  | init
  deriving DecidableEq, Repr, Inhabited

namespace Arguments

/-! ### The shape of one argument -/

/-- How an argument is to be taken. -/
inductive Form where
  /-- `--`, behind which every argument is a plain one. -/
  | divider
  /-- `--name` or `--name=value`. -/
  | long (name : String) (value : Option String)
  /-- `-abc`. -/
  | short (letters : List Char)
  | plain (text : String)
  deriving DecidableEq, Repr, Inhabited

/-- The form of a long argument, given what follows its dashes. -/
def Form.ofLong (text : List Char) : Form :=
  match text.dropWhile (· != '=') with
  | [] => .long (String.ofList text) none
  | _ :: value => .long (String.ofList (text.takeWhile (· != '='))) (some (String.ofList value))

/-- The form of an argument. -/
def Form.ofText (text : String) : Form :=
  match text.toList with
  | ['-', '-'] => .divider
  | '-' :: '-' :: rest => .ofLong rest
  | '-' :: c :: rest => .short (c :: rest)
  | _ => .plain text

/-! ### Arguments of extraction -/

/-- An option that takes a value. -/
inductive Valued where
  | baseUrl
  | output
  deriving DecidableEq, Repr, Inhabited

/-- An option that is on or off. -/
inductive Switch where
  | fixedPoint
  | compact
  | verbose
  deriving DecidableEq, Repr, Inhabited

/-- What a named argument of extraction stands for. -/
inductive Flag where
  | help
  | valued (option : Valued)
  | switch (switch : Switch)
  deriving DecidableEq, Repr, Inhabited

/-- The flag of a long name. -/
def Flag.ofName? (name : String) : Option Flag :=
  match name with
  | "help" => some .help
  | "base-url" => some (.valued .baseUrl)
  | "output" => some (.valued .output)
  | "fixed-point" => some (.switch .fixedPoint)
  | "compact" => some (.switch .compact)
  | "verbose" => some (.switch .verbose)
  | _ => none

/-- The flag of a letter. -/
def Flag.ofLetter? (letter : Char) : Option Flag :=
  match letter with
  | 'h' => some .help
  | 'o' => some (.valued .output)
  | 'v' => some (.switch .verbose)
  | _ => none

/-- An occurrence that has been recognised and not yet taken in. -/
inductive Pending where
  | valued (option : Valued) (value : Option String)
  | paths (texts : List String)
  deriving DecidableEq, Repr, Inhabited

/-- How far the arguments have been read. -/
structure Progress where
  request : Request := {}
  pending : Option Pending := none
  /-- Whether the divider has been passed. -/
  divided : Bool := false
  deriving DecidableEq, Repr, Inhabited

namespace Progress

/-- Takes in the value of an option. A path must not be empty. -/
def takeValue (request : Request) (option : Valued) (value : String) : Except Usage Request :=
  match option with
  | .baseUrl =>
    if request.baseUrl.isSome then .error .repeated
    else .ok { request with baseUrl := some value }
  | .output =>
    if request.output.isSome then .error .repeated
    else if value.isEmpty then .error .invalidValue
    else .ok { request with output := some value }

/-- Takes in a switch. -/
def takeSwitch (request : Request) (switch : Switch) : Except Usage Request :=
  match switch with
  | .fixedPoint =>
    if request.fixedPoint then .error .repeated else .ok { request with fixedPoint := true }
  | .compact =>
    if request.compact then .error .repeated else .ok { request with compact := true }
  | .verbose =>
    if request.verbose then .error .repeated else .ok { request with verbose := true }

/-- Takes in an occurrence. -/
def takePending (request : Request) : Pending → Except Usage Request
  | .valued _ none => .error .invalidValue
  | .valued option (some value) => takeValue request option value
  | .paths texts =>
    if texts.any String.isEmpty then .error .invalidValue
    else .ok { request with paths := request.paths ++ texts }

/-- The request with the occurrence taken in that is still open. -/
def settled (progress : Progress) : Except Usage Request :=
  match progress.pending with
  | none => .ok progress.request
  | some pending => takePending progress.request pending

/-- Goes on with a request. -/
def resume (progress : Progress) (request : Request) : Progress :=
  { progress with request := request, pending := none }

/-- Reads an option with its value, or opens it if the value is still to come. -/
def readValued (progress : Progress) (option : Valued) (value : Option String) :
    Except Usage Progress := do
  let request ← progress.settled
  match value with
  | some text => return progress.resume (← takeValue request option text)
  | none => return { progress.resume request with pending := some (.valued option none) }

/-- Reads a switch. -/
def readSwitch (progress : Progress) (switch : Switch) : Except Usage Progress := do
  return progress.resume (← takeSwitch (← progress.settled) switch)

/-- Reads the call for help. -/
def readHelp (progress : Progress) : Except Usage Progress := do
  let _ ← progress.settled
  throw .help

/-- Reads a long argument. -/
def readLong (progress : Progress) (name : String) (value : Option String) :
    Except Usage Progress :=
  match Flag.ofName? name, value with
  | none, _ => .error .unknownArgument
  | some (.valued option), _ => progress.readValued option value
  | some _, some _ => .error .needlessValue
  | some .help, none => progress.readHelp
  | some (.switch switch), none => progress.readSwitch switch

/-- The value that follows the letter of an option: none, if nothing follows. -/
def attachedValue (letters : List Char) : Option String :=
  match letters with
  | [] => none
  | '=' :: rest => some (String.ofList rest)
  | _ => some (String.ofList letters)

/-- Reads the letters of a short argument. -/
def readShort : List Char → Progress → Except Usage Progress
  | [], progress => .ok progress
  | letter :: rest, progress =>
    match Flag.ofLetter? letter with
    | none => .error .unknownArgument
    | some .help => progress.readHelp
    | some (.valued option) => progress.readValued option (attachedValue rest)
    | some (.switch switch) =>
      match progress.readSwitch switch with
      | .ok next => readShort rest next
      | .error usage => .error usage

/-- Reads a path. Paths in a row are one occurrence. -/
def readPath (progress : Progress) (text : String) : Except Usage Progress :=
  match progress.pending with
  | some (.paths texts) => .ok { progress with pending := some (.paths (texts ++ [text])) }
  | _ =>
    match progress.settled with
    | .ok request => .ok { progress.resume request with pending := some (.paths [text]) }
    | .error usage => .error usage

/-- Reads a plain argument: the value of an option that waits for one, or a path. -/
def readPlain (progress : Progress) (text : String) : Except Usage Progress :=
  match progress.pending with
  | some (.valued option none) =>
    .ok { progress with pending := some (.valued option (some text)) }
  | _ => progress.readPath text

/-- Reads one argument. -/
def read (progress : Progress) (text : String) : Except Usage Progress :=
  if progress.divided then progress.readPath text
  else
    match Form.ofText text with
    | .divider => .ok { progress with divided := true }
    | .long name value => progress.readLong name value
    | .short letters => readShort letters progress
    | .plain plain => progress.readPlain plain

end Progress

/-- Reads the arguments of extraction. -/
def readRequest (arguments : List String) : Except Usage Request := do
  (← arguments.foldlM Progress.read {}).settled

/-! ### Arguments of other commands -/

/-- Reads the arguments of a command that takes none but the call for help. -/
def readNone : List String → Except Usage Unit
  | [] => .ok ()
  | text :: rest =>
    match Form.ofText text with
    | .divider => if rest.isEmpty then .ok () else .error .unknownArgument
    | .long "help" none => .error .help
    | .long "help" (some _) => .error .needlessValue
    | .short ('h' :: _) => .error .help
    | _ => .error .unknownArgument

/-- The names of the commands. -/
def commandNames : List String := ["extract", "init", "help"]

/-- Reads the arguments of the call for help: a command, which has no commands of its own. -/
def readTopics : List String → Usage
  | [] => .help
  | [name] => if commandNames.contains name then .help else .unknownCommand
  | _ => .unknownCommand

/-- Reads arguments in front of a command. -/
def readGlobal (text : String) (rest : List String) : Except Usage (Option Command) :=
  match Form.ofText text with
  | .divider =>
    match rest with
    | [] => .ok none
    | next :: _ =>
      .error (if commandNames.contains next then .unknownArgument else .unknownCommand)
  | .long "help" none => .error .help
  | .long "version" none => .error .version
  | .long "help" (some _) => .error .needlessValue
  | .long "version" (some _) => .error .needlessValue
  | .short ('h' :: _) => .error .help
  | .short ('V' :: _) => .error .version
  | .plain _ => .error .unknownCommand
  | _ => .error .unknownArgument

/-- Reads all arguments. Without any there is nothing to do. -/
def readCommand : List String → Except Usage (Option Command)
  | [] => .ok none
  | "extract" :: rest => do return some (.extract (← readRequest rest))
  | "init" :: rest => do
    readNone rest
    return some .init
  | "help" :: rest => .error (readTopics rest)
  | text :: rest => readGlobal text rest

/-- The command with the address that the environment gives, unless an argument gives one. -/
def withEnvironment (environmentUrl : Option String) : Command → Command
  | .extract request => .extract { request with baseUrl := request.baseUrl <|> environmentUrl }
  | .init => .init

/-- Reads the arguments, given the address from the environment. -/
def read (arguments : List String) (environmentUrl : Option String) :
    Except Usage (Option Command) := do
  return (← readCommand arguments).map (withEnvironment environmentUrl)

end Arguments

end DocEntities
