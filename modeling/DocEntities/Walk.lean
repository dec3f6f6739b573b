/-
This file attaches comments to code in one walk along the outline of a program. The first
site that starts on a documented line is documented by the comment of that line, and the line
is claimed, so that sites inside it on the same line are passed over. The evidence on a site
is layered: its line of code, its shape, a record that an enclosing class left for it, and
last the comment itself.

Records are left when a class defined by `extend` is documented, and dropped when its inside
has been walked. Containers and functions are left as they are entered, so a walk gives the
scope back as it found it.
-/

import DocEntities.Comment.Index
import DocEntities.Comment.Reading
import DocEntities.Event
import DocEntities.LineForm
import DocEntities.Options
import DocEntities.Outline

namespace DocEntities

/-- What a walk needs to know besides the outline. -/
structure Surroundings where
  comments : CommentIndex
  /-- The text of a line of code. -/
  lineText : Nat → String
  options : Options

/-- What becomes of a comment that found its code. -/
inductive Finding where
  | entity (entity : Entity)
  /-- Nothing names the code behind the comment that starts on `line`. -/
  | unnamed (line : Nat)
  deriving DecidableEq, Repr, Inhabited

/-- The state of a walk. -/
structure Walk where
  scope : Scope := {}
  /-- The documented lines whose comment has been used. -/
  claimed : List Nat := []
  /-- The records left for sites to come, by the offset at which the site starts. -/
  pending : List (Nat × Evidence) := []
  /-- What was found, in order. -/
  findings : List Finding := []
  deriving DecidableEq, Repr, Inhabited

namespace Walk

/-- The record left for an offset. -/
def record? (pending : List (Nat × Evidence)) (offset : Nat) : Option Evidence :=
  (pending.find? (fun entry => entry.1 == offset)).map Prod.snd

/-- The records that are left for other offsets. -/
def dropRecord (offset : Nat) (pending : List (Nat × Evidence)) : List (Nat × Evidence) :=
  pending.filter (fun entry => entry.1 != offset)

/-- The records with those left for some offsets dropped. -/
def dropRecords (offsets : List Nat) (pending : List (Nat × Evidence)) :
    List (Nat × Evidence) :=
  pending.filter (fun entry => !offsets.contains entry.1)

/-- Leaves a record, in the place of one left for the same offset. -/
def leaveRecord (pending : List (Nat × Evidence)) (record : Nat × Evidence) :
    List (Nat × Evidence) :=
  record :: dropRecord record.1 pending

/-- The origin of what is defined on a line. -/
def origin (options : Options) (line : Nat) : Origin :=
  ⟨line, options.sourceUrl, options.sourceName⟩

/-- All evidence on a site: its origin, its line, its shape, the record left for it, and its
comment, each laid over those before. -/
def evidence (around : Surroundings) (scope : Scope) (line : Nat) (description : Description)
    (record : Option Evidence) (doc : DocComment) : Evidence :=
  ((((({ source := some (origin around.options line) } : Evidence).merge
    (Evidence.ofLine (around.lineText line) scope.isTopLevel)).merge
      description.evidence).merge (record.getD .empty)).merge (Evidence.ofComment doc.text))

/-- What becomes of a comment, given all evidence on its site. -/
def finding (evidence : Evidence) (doc : DocComment) : Finding :=
  match evidence.toEntity? with
  | some entity => .entity entity
  | none => .unnamed doc.startLine

/-- The comment that a site of a line would be documented by: the comment of the line, unless
it has been used. -/
def doc? (around : Surroundings) (walk : Walk) (line : Nat) : Option DocComment :=
  if walk.claimed.contains line then none else around.comments.preceding? line

/-- Documents a site, if there is a comment for it. Also gives the offsets of the records left
for sites inside it. -/
def document (around : Surroundings) (start : Script.Position) (shape : Shape) (walk : Walk) :
    Walk × List Nat :=
  match walk.doc? around start.line with
  | none => (walk, [])
  | some doc =>
    let description := shape.describe walk.scope around.options.utilityNamespaces
    let pending := description.records.foldl leaveRecord walk.pending
    let found := evidence around walk.scope start.line description
      (record? pending start.offset) doc
    ({ walk with
        claimed := start.line :: walk.claimed
        pending := dropRecord start.offset pending
        findings := walk.findings ++ [finding found doc] },
      description.records.map Prod.fst)

/-- Walks along an outline. -/
def along (around : Surroundings) : Outline → Walk → Walk
  | .nil, walk => walk
  | .site start shape inside after, walk =>
    let (documented, offsets) := walk.document around start shape
    let walked := along around inside documented
    along around after { walked with pending := dropRecords offsets walked.pending }
  | .within segments inside after, walk =>
    let walked := along around inside { walk with scope := walk.scope.push segments }
    along around after { walked with scope := walked.scope.pop segments.length }
  | .function inside after, walk =>
    let walked := along around inside { walk with scope := walk.scope.enter }
    along around after { walked with scope := walked.scope.exit }

end Walk

/-! ### Tables of findings -/

/-- What was found along an outline. -/
def Outline.findings (outline : Outline) (around : Surroundings) : List Finding :=
  (Walk.along around outline {}).findings

/-- The entity of a finding, if it has one. -/
def Finding.entity? : Finding → Option Entity
  | .entity found => some found
  | .unnamed _ => none

/-- The table of what was found. -/
def Table.ofFindings (findings : List Finding) : Table :=
  Table.ofList (findings.filterMap Finding.entity?)

/-- The events of entering findings into a table. -/
def Table.findingEvents (table : Table) : List Finding → List Event
  | [] => []
  | .unnamed line :: rest => .unnamed line :: table.findingEvents rest
  | .entity entity :: rest =>
    let next := table.insert entity
    (next.collisions.drop table.collisions.length).map .overridden ++ next.findingEvents rest

end DocEntities
