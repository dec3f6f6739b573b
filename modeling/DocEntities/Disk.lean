/-
This file holds what a run finds on its disk: directories with their files, how a path leads
through them, and how texts are read and written. A directory is a list of named entries in
the order of their names, and every way of changing one keeps that order, so that going
through a directory needs no sorting. Some directories cannot be listed: a path still leads to
what is in them, but going through them only meets the fault.
-/

import DocEntities.Path

namespace DocEntities

/-- Why a path leads to nothing, or a file could not be read or written. -/
inductive FileFault where
  | notFound
  | isDirectory
  | notDirectory
  /-- The bytes of the file are no text. -/
  | notText
  /-- The path has a character that no name may have. -/
  | invalidName
  | nameTooLong
  deriving DecidableEq, Repr, Inhabited

/-- The wording of a fault. -/
def FileFault.reason : FileFault → String
  | .notFound => "No such file or directory (os error 2)"
  | .isDirectory => "Is a directory (os error 21)"
  | .notDirectory => "Not a directory (os error 20)"
  | .notText => "stream did not contain valid UTF-8"
  | .invalidName => "file name contained an unexpected NUL byte"
  | .nameTooLong => "File name too long (os error 36)"

/-! ### Limits -/

namespace Workspace

/-- How many bytes a name may have. -/
def longestName : Nat := 255

/-- How many bytes a path may have. -/
def longestPath : Nat := 4095

/-- Whether a path is short enough to be looked up. -/
def fits (path : String) : Bool :=
  path.utf8ByteSize ≤ longestPath

end Workspace

/-! ### Directories -/

/-- A directory, entry by entry. -/
inductive Directory where
  | empty
  | file (name : String) (bytes : ByteArray) (rest : Directory)
  | folder (name : String) (inside rest : Directory)
  /-- An entry that is neither a file nor a directory, such as a socket or a device. -/
  | special (name : String) (rest : Directory)
  /-- From here on the directory cannot be listed, for a reason that the system words. What stands
  behind is reached by its name alone. -/
  | unlisted (reason : String) (rest : Directory)
  deriving Inhabited

/-- What a name in a directory stands for. -/
inductive Node where
  | file (bytes : ByteArray)
  | folder (inside : Directory)
  | special
  deriving Inhabited

/-- Whether an entry is a file. -/
def Node.isFile : Node → Bool
  | .file _ => true
  | .folder _ | .special => false

/-- Whether an entry is a directory. -/
def Node.isFolder : Node → Bool
  | .folder _ => true
  | .file _ | .special => false

namespace Directory

/-- The entry of a name. -/
def find? (name : String) : Directory → Option Node
  | .empty => none
  | .file other bytes rest => if other = name then some (.file bytes) else rest.find? name
  | .folder other inside rest =>
    if other = name then some (.folder inside) else rest.find? name
  | .special other rest => if other = name then some .special else rest.find? name
  | .unlisted _ rest => rest.find? name

/-- Puts an entry in front of a directory. -/
def cons (name : String) (entry : Node) (rest : Directory) : Directory :=
  match entry with
  | .file bytes => .file name bytes rest
  | .folder inside => .folder name inside rest
  | .special => .special name rest

/-- Puts an entry at its place in a directory, instead of the one that has its name. -/
def put (name : String) (entry : Node) : Directory → Directory
  | .empty => cons name entry .empty
  | .file other bytes rest =>
    if other = name then cons name entry rest
    else if name < other then cons name entry (.file other bytes rest)
    else .file other bytes (rest.put name entry)
  | .folder other inside rest =>
    if other = name then cons name entry rest
    else if name < other then cons name entry (.folder other inside rest)
    else .folder other inside (rest.put name entry)
  | .special other rest =>
    if other = name then cons name entry rest
    else if name < other then cons name entry (.special other rest)
    else .special other (rest.put name entry)
  | .unlisted reason rest => .unlisted reason (rest.put name entry)

/-- Why a directory cannot be listed, if it cannot. -/
def fault? : Directory → Option String
  | .empty => none
  | .file _ _ rest | .folder _ _ rest | .special _ rest => rest.fault?
  | .unlisted reason _ => some reason

/-- Puts an entry at a place below a directory. Directories on the way that are missing are
made. -/
def putAt (entry : Node) : List String → Directory → Directory
  | [], directory => directory
  | [name], directory => directory.put name entry
  | name :: next :: rest, directory =>
    let inside :=
      match directory.find? name with
      | some (.folder inside) => inside
      | _ => .empty
    directory.put name (.folder (putAt entry (next :: rest) inside))

end Directory

/-- The entry at a place below an entry. -/
def Node.at? : List String → Node → Option Node
  | [], entry => some entry
  | _ :: _, .file _ | _ :: _, .special => none
  | name :: rest, .folder inside =>
    match inside.find? name with
    | some entry => entry.at? rest
    | none => none

/-! ### Going through a directory -/

/-- An entry together with the path that led to it. -/
structure Located where
  path : String
  entry : Node
  deriving Inhabited

/-- Everything that is met on the way through a directory: each entry, and behind a directory what
is in it. Of a directory that cannot be listed, or whose path is too long, only the directory is
met. -/
def Directory.descendants (path : String) : Directory → List Located
  | .empty | .unlisted _ _ => []
  | .file name bytes rest => ⟨Path.join path name, .file bytes⟩ :: rest.descendants path
  | .special name rest => ⟨Path.join path name, .special⟩ :: rest.descendants path
  | .folder name inside rest =>
    ⟨Path.join path name, .folder inside⟩ ::
      ((if Workspace.fits (Path.join path name) then inside.descendants (Path.join path name)
        else []) ++ rest.descendants path)

/-- The entries that listing a directory gives. -/
def Directory.children (path : String) : Directory → List Located
  | .empty | .unlisted _ _ => []
  | .file name bytes rest => ⟨Path.join path name, .file bytes⟩ :: rest.children path
  | .special name rest => ⟨Path.join path name, .special⟩ :: rest.children path
  | .folder name inside rest => ⟨Path.join path name, .folder inside⟩ :: rest.children path

namespace Located

/-- Whether a file was found, and can be looked up. -/
def isFile (found : Located) : Bool :=
  found.entry.isFile && Workspace.fits found.path

/-- Whether a directory was found. -/
def isFolder (found : Located) : Bool :=
  found.entry.isFolder

/-- Why a directory that was found cannot be listed. -/
def fault? (found : Located) : Option String :=
  match found.entry with
  | .folder inside =>
    if Workspace.fits found.path then inside.fault? else some FileFault.nameTooLong.reason
  | .file _ | .special => none

/-- What is met in a directory that was found. -/
def below (found : Located) : List Located :=
  match found.entry with
  | .folder inside => if Workspace.fits found.path then inside.descendants found.path else []
  | .file _ | .special => []

/-- What was found, and what is met in it. -/
def tree (found : Located) : List Located :=
  found :: found.below

end Located

/-! ### Paths on a disk -/

/-- A disk, and the place on it where a run works. -/
structure Workspace where
  disk : Directory
  /-- The names that lead from the top of the disk to the working directory. -/
  location : List String := []
  deriving Inhabited

namespace Workspace

/-- The entry at a place. -/
def nodeAt? (workspace : Workspace) (location : List String) : Option Node :=
  (Node.folder workspace.disk).at? location

/-- One step from a place. Every step starts from a directory. -/
def step (workspace : Workspace) (location : List String) (piece : String) :
    Except FileFault (List String) :=
  match workspace.nodeAt? location with
  | none => .error .notFound
  | some (.file _) | some .special => .error .notDirectory
  | some (.folder inside) =>
    if piece = "." then .ok location
    else if piece = ".." then .ok location.dropLast
    else if piece.utf8ByteSize > longestName then .error .nameTooLong
    else if (inside.find? piece).isSome then .ok (location ++ [piece])
    else .error .notFound

/-- Several steps from a place. -/
def follow (workspace : Workspace) : List String → List String → Except FileFault (List String)
  | location, [] => .ok location
  | location, piece :: rest =>
    match workspace.step location piece with
    | .ok next => workspace.follow next rest
    | .error fault => .error fault

/-- Where a path starts. -/
def start (workspace : Workspace) (path : String) : List String :=
  if Path.isAbsolute path then [] else workspace.location

/-- Checks that a text can be a path. -/
def checkPath (path : String) : Except FileFault Unit :=
  if path.toList.contains '\x00' then .error .invalidName
  else if path.isEmpty then .error .notFound
  else if !fits path then .error .nameTooLong
  else .ok ()

/-- The place to which a path leads. -/
def locate (workspace : Workspace) (path : String) : Except FileFault (List String) := do
  checkPath path
  workspace.follow (workspace.start path) (Path.steps path)

/-- The entry to which a path leads. -/
def find (workspace : Workspace) (path : String) : Except FileFault Node := do
  match workspace.nodeAt? (← workspace.locate path) with
  | some entry => return entry
  | none => throw .notFound

/-- The entry to which a path leads, with the path. -/
def visit (workspace : Workspace) (path : String) : Except FileFault Located := do
  return ⟨path, ← workspace.find path⟩

/-- Whether a path leads anywhere. -/
def exists? (workspace : Workspace) (path : String) : Bool :=
  (workspace.find path).isOk

/-! ### Texts -/

/-- The text of a file. There is none behind a special entry. -/
def textOf : Node → Except FileFault String
  | .folder _ => .error .isDirectory
  | .special => .error .notFound
  | .file bytes =>
    match String.fromUTF8? bytes with
    | some text => .ok text
    | none => .error .notText

/-- Reads the text of the file to which a path leads. -/
def readText (workspace : Workspace) (path : String) : Except FileFault String := do
  textOf (← workspace.find path)

/-- Writes a file into the directory at a place. A special entry swallows the text. -/
def writeAt (workspace : Workspace) (parent : List String) (name text : String) :
    Except FileFault Workspace :=
  match workspace.nodeAt? parent with
  | none => .error .notFound
  | some (.file _) | some .special => .error .notDirectory
  | some (.folder inside) =>
    if name = "." ∨ name = ".." then .error .isDirectory
    else if name.utf8ByteSize > longestName then .error .nameTooLong
    else
      match inside.find? name with
      | some (.folder _) => .error .isDirectory
      | some .special => .ok workspace
      | some (.file _) | none =>
        .ok { workspace with
          disk := workspace.disk.putAt (.file text.toUTF8) (parent ++ [name]) }

/-- Writes a text to the file to which a path leads, which is made if it is missing. -/
def writeText (workspace : Workspace) (path text : String) : Except FileFault Workspace := do
  checkPath path
  let names := (Path.pieces path).filter (fun piece => !piece.isEmpty)
  match names.getLast? with
  | none => throw .isDirectory
  | some name =>
    let parent ← workspace.follow (workspace.start path) names.dropLast
    if Path.endsWithSeparator path then throw .isDirectory
    else workspace.writeAt parent name text

end Workspace

end DocEntities
