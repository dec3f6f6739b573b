/-
This file finds the paths on a disk that a pattern stands for. The pattern is cut at its
separators, and each part takes one step: a plain name leads to the entry of that name, a part
with wildcards to every entry of the directory whose name it matches, and `**` to everything
below the directory. What is found is in the order of the names.

`**` at the end of a pattern stands for directories only, and a separator at the end asks for
directories too.
-/

import DocEntities.Disk
import DocEntities.Glob

namespace DocEntities

namespace Glob

/-- One step of a pattern through the disk. -/
inductive Step where
  | name (text : String)
  | matching (glob : Glob)
  /-- Any number of steps down. -/
  | anyDepth
  deriving DecidableEq, Repr, Inhabited

/-- Whether a part stands for nothing but itself. -/
def Part.isPlain : Part → Bool
  | .exactly _ => true
  | _ => false

/-- Reads the step that one part of a pattern stands for. -/
def Step.ofPiece (piece : String) : Except Invalid Step :=
  match Glob.ofText piece with
  | .error invalid => .error invalid
  | .ok glob =>
    if glob.parts = [.anyComponents] then .ok .anyDepth
    else if glob.parts.all Part.isPlain then .ok (.name piece)
    else .ok (.matching glob)

/-- Whether a step that goes to one entry goes to the entry of this name. -/
def Step.accepts : Step → String → Bool
  | .name text, other => text == other
  | .matching glob, other => glob.accepts other
  | .anyDepth, _ => true

/-- The parts of a pattern between its separators. One at the start or at the end makes no
empty part. -/
def stepPieces (pattern : String) : List String :=
  let all := Path.pieces pattern
  let inner := if Path.isAbsolute pattern then all.drop 1 else all
  if inner.getLast? == some "" then inner.dropLast else inner

/-- Reads the steps of a pattern, which has to be a pattern as a whole too. -/
def steps (pattern : String) : Except Invalid (List Step) := do
  let _ ← Glob.ofText pattern
  (stepPieces pattern).mapM Step.ofPiece

/-- Whether a pattern starts with a dot. Only such a pattern can stand for a directory itself
or the one above. -/
def startsWithDot (glob : Glob) : Bool :=
  glob.parts.head? == some (.exactly '.')

end Glob

namespace Located

/-- What the paths of entries in a directory start with. The working directory is left out. -/
def base (found : Located) : String :=
  if Path.isHere found.path then "" else found.path

/-- The entries of a directory. -/
def children (found : Located) : List Located :=
  match found.entry with
  | .folder inside => if Workspace.fits found.path then inside.children found.base else []
  | .file _ | .special => []

/-- Everything below a directory. -/
def descendants (found : Located) : List Located :=
  match found.entry with
  | .folder inside => if Workspace.fits found.path then inside.descendants found.base else []
  | .file _ | .special => []

/-- Whether a step that goes to one entry goes to this one. -/
def isReachedBy (step : Glob.Step) (found : Located) : Bool :=
  match Path.fileName? found.path with
  | none => false
  | some name => step.accepts name

end Located

namespace Workspace

/-- The entry to which a path leads, if there is one. -/
def visited (workspace : Workspace) (path : String) : List Located :=
  (workspace.visit path).toOption.toList

/-- The directory above a directory and the directory itself, as far as a pattern stands for
them. They are looked for when the directory is listed. -/
def dotted (workspace : Workspace) (glob : Glob) (found : Located) : List Located :=
  if glob.startsWithDot && found.fault?.isNone then
    (["..", "."].filter glob.accepts).flatMap
      (fun piece => workspace.visited (Path.join found.path piece))
  else []

/-- What steps lead to from what was found. -/
def reach (workspace : Workspace) : List Glob.Step → Located → List Located
  | [] => fun found => [found]
  | .name text :: rest => fun found =>
    (workspace.visited (Path.join found.base text)).flatMap (workspace.reach rest)
  | .matching glob :: rest => fun found =>
    (workspace.dotted glob found ++
      found.children.filter (Located.isReachedBy (.matching glob))).flatMap (workspace.reach rest)
  | [.anyDepth] => fun found => found.descendants.filter Located.isFolder
  | .anyDepth :: .anyDepth :: rest => workspace.reach (.anyDepth :: rest)
  | .anyDepth :: next :: rest => fun found =>
    (found.descendants.filter (Located.isReachedBy next)).flatMap (workspace.reach rest)

/-- The paths that a pattern stands for. -/
def expand (workspace : Workspace) (pattern : String) : Except Glob.Invalid (List String) := do
  let steps ← Glob.steps pattern
  let start := if Path.isAbsolute pattern then "/" else "."
  let found := (workspace.visited start).flatMap (workspace.reach steps)
  let kept := if Path.endsWithSeparator pattern then found.filter Located.isFolder else found
  return kept.map Located.path

end Workspace

end DocEntities
