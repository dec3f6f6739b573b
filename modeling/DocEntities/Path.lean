/-
This file holds what can be said of a path from its text alone: how paths are joined, into
which components a path falls, and which of its components lead to another path. A path keeps
its spelling, so `./a` and `a` stay different texts and have different components, although
they lead to the same place.
-/

import DocEntities.Text.Split

namespace DocEntities.Path

/-- Whether a path starts at the top of the disk. -/
def isAbsolute (path : String) : Bool :=
  path.toList.head? == some '/'

/-- Whether a path ends with a separator. -/
def endsWithSeparator (path : String) : Bool :=
  path.toList.getLast? == some '/'

/-- The texts between the separators of a path. -/
def pieces (path : String) : List String :=
  Text.splitOnChar '/' path

/-- A path taken from the place where another one leads. -/
def join (base path : String) : String :=
  if isAbsolute path || base.isEmpty then path
  else if endsWithSeparator base then base ++ path
  else base ++ "/" ++ path

/-! ### Components -/

/-- The parts of a path. -/
inductive Component where
  | top
  /-- The place itself, which only counts at the start of a path. -/
  | here
  | parent
  | named (name : String)
  deriving DecidableEq, Repr, Inhabited

/-- The component that a text between separators stands for, if it stands for one. -/
def Component.ofPiece? (piece : String) : Option Component :=
  if piece == "" || piece == "." then none
  else if piece == ".." then some .parent
  else some (.named piece)

/-- The components of a path. Repeated separators count once and a `.` inside not at all. -/
def components (path : String) : List Component :=
  let inner := (pieces path).filterMap Component.ofPiece?
  if isAbsolute path then .top :: inner
  else if (pieces path).head? == some "." then .here :: inner
  else inner

/-- Whether the components of a path start with those of another. -/
def isUnder (path ancestor : String) : Bool :=
  (components ancestor).isPrefixOf (components path)

/-- Whether a path stays where it starts. -/
def isHere (path : String) : Bool :=
  components path == [.here]

/-- The name at the end of a path. -/
def fileName? (path : String) : Option String :=
  match (components path).getLast? with
  | some (.named name) => some name
  | _ => none

/-- What follows the last dot of the name at the end of a path. A dot at the start of the name
does not count. -/
def extension? (path : String) : Option String := do
  let name ← fileName? path
  let reversed := name.toList.reverse
  match reversed.dropWhile (· != '.') with
  | _ :: _ :: _ => some (String.ofList (reversed.takeWhile (· != '.')).reverse)
  | _ => none

/-! ### Steps -/

/-- The steps that lead along a path. A separator at the end is a step that stays, as it asks
for a directory. -/
def steps (path : String) : List String :=
  (pieces path).filter (fun piece => !piece.isEmpty) ++
    (if endsWithSeparator path then ["."] else [])

end DocEntities.Path
