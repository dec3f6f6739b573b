/-
This file collects the source files of a project. What is included names the places where to
look, as paths or patterns; each place is gone through in the order of the names; and a file
counts if its extension is that of a source, nothing that is ignored covers it, and its path
has not been found before.
-/

import DocEntities.Event
import DocEntities.Glob.Expansion

namespace DocEntities

/-! ### What is ignored -/

/-- Something that is not looked at. -/
inductive Ignore where
  /-- A path and everything below it. -/
  | under (path : String)
  /-- Every path that a pattern matches. -/
  | matching (glob : Glob)
  deriving DecidableEq, Repr, Inhabited

namespace Ignore

/-- Reads what is to be ignored: a pattern, or a path from a base directory. -/
def ofText (base text : String) : Except Glob.Invalid Ignore :=
  if Glob.isPattern text then
    match Glob.ofText text with
    | .ok glob => .ok (.matching glob)
    | .error invalid => .error invalid
  else .ok (.under (Path.join base text))

/-- Whether a path is ignored. -/
def covers : Ignore → String → Bool
  | .under ancestor, path => Path.isUnder path ancestor
  | .matching glob, path => glob.accepts path

/-- What is to be ignored, without texts that are no patterns. -/
def ofList (base : String) (texts : List String) : List Ignore :=
  texts.filterMap (fun text => (ofText base text).toOption)

/-- The event for a text that is no pattern. -/
def event? (base text : String) : Option Event :=
  match ofText base text with
  | .ok _ => none
  | .error invalid => some (.ignoreInvalid text invalid.message)

end Ignore

/-! ### What is included -/

/-- Places to look at, and what came up when finding them. -/
structure Roots where
  paths : List String := []
  events : List Event := []
  deriving DecidableEq, Repr, Inhabited

namespace Roots

/-- The places of a text: those a pattern stands for, or the path itself. -/
def ofInclude (workspace : Workspace) (base text : String) : Roots :=
  let path := Path.join base text
  if Glob.isPattern text then
    match workspace.expand path with
    | .ok paths => { paths := paths }
    | .error invalid => { events := [.includeInvalid text invalid.message] }
  else if workspace.exists? path then { paths := [path] }
  else { events := [.includeMissing path] }

/-- The places of one list and then those of another. -/
def append (first second : Roots) : Roots :=
  ⟨first.paths ++ second.paths, first.events ++ second.events⟩

/-- The places of several texts. -/
def ofIncludes (workspace : Workspace) (base : String) : List String → Roots
  | [] => {}
  | text :: texts => (ofInclude workspace base text).append (ofIncludes workspace base texts)

/-- The places where to look: those of what is included, or the base directory if nothing
is. -/
def ofList (workspace : Workspace) (base : String) (includes : List String) : Roots :=
  if includes.isEmpty then { paths := [if base.isEmpty then "." else base] }
  else ofIncludes workspace base includes

end Roots

/-! ### The files -/

/-- The extensions of sources. -/
def sourceExtensions : List String := ["js", "mjs", "cjs", "jsx"]

/-- Whether the file of a path is a source. -/
def isSource (path : String) : Bool :=
  match Path.extension? path with
  | none => false
  | some ending => sourceExtensions.contains ending

/-- Whether a file to read was found. -/
def Located.isWanted (ignores : List Ignore) (found : Located) : Bool :=
  found.isFile && isSource found.path &&
    !ignores.any (fun ignore => ignore.covers found.path)

/-- The list with only the first of equal texts. -/
def firsts (texts : List String) : List String :=
  texts.foldl (fun found text => if found.contains text then found else found ++ [text]) []

/-- What a search found. -/
structure Scan where
  /-- The paths of the files. Their order decides which file wins a shared namepath. -/
  files : List String
  /-- How many places could not be looked at, and how many directories could not be listed. -/
  skipped : Nat
  events : List Event
  deriving DecidableEq, Repr, Inhabited

namespace Workspace

/-- The paths of the files to read at and below a place. -/
def filesUnder (workspace : Workspace) (ignores : List Ignore) (root : String) : List String :=
  match workspace.visit root with
  | .ok found => (found.tree.filter (Located.isWanted ignores)).map Located.path
  | .error _ => []

/-- The events of going through a place: one if it cannot be looked at, and otherwise one for each
directory that is met and cannot be listed. -/
def visitEvents (workspace : Workspace) (root : String) : List Event :=
  match workspace.visit root with
  | .ok found => found.tree.filterMap fun met => met.fault?.map (.unreachable met.path)
  | .error fault => [.unreachable root fault.reason]

/-- Collects the sources among what is included and not ignored, both given from a base
directory. -/
def scan (workspace : Workspace) (base : String) (includes ignores : List String) : Scan :=
  let roots := Roots.ofList workspace base includes
  let files := firsts (roots.paths.flatMap (workspace.filesUnder (Ignore.ofList base ignores)))
  let unreachable := roots.paths.flatMap workspace.visitEvents
  { files := files
    skipped := unreachable.length
    events :=
      ignores.filterMap (Ignore.event? base) ++ roots.events ++ unreachable ++
        [.filesFound files.length] }

end Workspace

end DocEntities
