/-
This file takes a list of files to one table. Each file is read on its own; the tables are
then merged in the order of the files, so that a later file wins a shared namepath, and the
kinds are corrected once, in the merged table.
-/

import DocEntities.Disk
import DocEntities.Extraction

namespace DocEntities

/-- The options of reading one file of a batch. -/
def Options.forFile (options : Options) (baseUrl : Option String) (path : String) : Options :=
  { options with
    sourceName := some path
    sourceUrl :=
      match baseUrl with
      | none => options.sourceUrl
      | some url => some (url ++ path) }

/-- What a file of a batch contributes. -/
structure Contribution where
  path : String
  findings : List Finding
  deriving DecidableEq, Repr, Inhabited

namespace Contribution

/-- The table of a file. -/
def table (contribution : Contribution) : Table :=
  Table.ofFindings contribution.findings

/-- The events of reading a file. -/
def events (contribution : Contribution) : List Event :=
  Table.empty.findingEvents contribution.findings ++
    [.fileDocumented contribution.path contribution.table.size]

end Contribution

namespace Table

/-- Takes in several tables, one after the other. -/
def extendAll (table : Table) (others : List Table) : Table :=
  others.foldl extend table

/-- The collisions between a table and another it takes in. -/
def overlap (table other : Table) : List Collision :=
  (table.extend other).collisions.drop (table.collisions.length + other.collisions.length)

/-- The events of taking in several tables. -/
def extendEvents (table : Table) : List Table → List Event
  | [] => []
  | other :: rest =>
    (table.overlap other).map .overridden ++ (table.extend other).extendEvents rest

end Table

/-- What came of a batch of files. -/
structure Batch where
  table : Table
  files : Nat
  promotions : List Promotion
  events : List Event
  deriving DecidableEq, Repr, Inhabited

namespace Batch

/-- Merges what the files of a batch contribute and corrects the kinds. -/
def ofContributions (contributions : List Contribution) (resolution : Resolution) : Batch :=
  let tables := contributions.map Contribution.table
  let resolved := (Table.empty.extendAll tables).resolve resolution
  { table := resolved.table
    files := contributions.length
    promotions := resolved.promotions
    events :=
      contributions.flatMap Contribution.events ++ Table.empty.extendEvents tables ++
        resolved.promotions.map .promoted ++ [.resolutionDone resolved.promotions.length] }

end Batch

namespace Workspace

/-- Reads one file of a batch. -/
def contribution (workspace : Workspace) (options : Options) (baseUrl : Option String)
    (path : String) : Except Failure Contribution :=
  match workspace.readText path with
  | .error fault => .error (.fileUnreadable path fault)
  | .ok code =>
    match extractFindings code (options.forFile baseUrl path) with
    | .error failure => .error failure
    | .ok findings => .ok ⟨path, findings⟩

/-- Documents a batch of files. The first file that cannot be read, in their order, decides the
failure. -/
def documentFiles (workspace : Workspace) (paths : List String) (options : Options)
    (baseUrl : Option String) : Except Failure Batch := do
  let contributions ← paths.mapM (workspace.contribution options baseUrl)
  return Batch.ofContributions contributions options.resolution

end Workspace

end DocEntities
