/-
This file proves that lines in front of a source only shift the lines that are reported. Whatever
a walk looks up by line it looks up behind the same lines: the comment of a line, the lines that
are claimed, and the text of the line. What it looks up by offset it finds as before, since offsets
keep their order. So the walk along the moved outline is the moved walk, step by step, and the
table of what it finds differs in the lines of the origins alone.
-/

import DocEntities.Proofs.Attachment
import DocEntities.Proofs.Script.Moved

namespace DocEntities

open Script

/-! ### What is moved -/

/-- An origin some lines further down. -/
def Origin.moved (lines : Nat) (origin : Origin) : Origin :=
  { origin with line := origin.line + lines }

/-- An entity that is defined some lines further down. -/
def Entity.moved (lines : Nat) (entity : Entity) : Entity :=
  { entity with source := entity.source.moved lines }

theorem Entity.id_moved (lines : Nat) (entity : Entity) : (entity.moved lines).id = entity.id :=
  rfl

/-- A collision of entities that are defined some lines further down. -/
def Collision.moved (lines : Nat) (collision : Collision) : Collision :=
  ⟨collision.id, collision.previous.moved lines, collision.replacement.moved lines⟩

/-- Evidence on an entity that is defined some lines further down. -/
def Evidence.moved (lines : Nat) (evidence : Evidence) : Evidence :=
  { evidence with source := evidence.source.map (Origin.moved lines) }

/-- A documentation comment some lines further down. -/
def DocComment.moved (lines : Nat) (doc : DocComment) : DocComment :=
  ⟨doc.text, doc.startLine + lines, doc.endLine + lines⟩

/-- A finding some lines further down. -/
def Finding.moved (lines : Nat) : Finding → Finding
  | .entity found => .entity (found.moved lines)
  | .unnamed line => .unnamed (line + lines)

/-- A comment moved down. -/
def SourceComment.moved (shift : Shift) (comment : SourceComment) : SourceComment :=
  { comment with start := comment.start.moved shift, endLine := comment.endLine + shift.lines }

/-- A source moved down: all nodes and comments are, and the texts of the lines stand behind
those of the lines above. -/
def Script.Parsed.moved (shift : Shift) (parsed : Parsed) : Parsed where
  program := parsed.program.moved shift
  comments := parsed.comments.map (SourceComment.moved shift)
  lines := shift.above ++ parsed.lines

/-- Records that are left for sites moved down. -/
def Walk.movedRecords (shift : Shift) (records : List (Nat × Evidence)) : List (Nat × Evidence) :=
  records.map (Prod.map shift.offset (Evidence.moved shift.lines))

/-- What a shape tells after a shift: the records are for sites moved down. -/
def Description.moved (shift : Shift) (description : Description) : Description :=
  { description with records := Walk.movedRecords shift description.records }

theorem Description.records_moved (shift : Shift) (description : Description) :
    (description.moved shift).records = Walk.movedRecords shift description.records :=
  rfl

/-- The state of a walk through a source moved down. -/
def Walk.moved (shift : Shift) (walk : Walk) : Walk where
  scope := walk.scope
  claimed := walk.claimed.map (· + shift.lines)
  pending := movedRecords shift walk.pending
  findings := walk.findings.map (Finding.moved shift.lines)

variable {shift : Shift}

/-! ### Offsets -/

namespace Script.Shift

theorem offset_inj {first second : Nat} :
    shift.offset first = shift.offset second ↔ first = second :=
  shift.increasing.injective.eq_iff

theorem offset_beq {first second : Nat} :
    (shift.offset first == shift.offset second) = (first == second) :=
  Bool.eq_iff_iff.mpr (by rw [beq_iff_eq, beq_iff_eq, offset_inj])

theorem offset_le_iff {first second : Nat} :
    shift.offset first ≤ shift.offset second ↔ first ≤ second :=
  shift.increasing.le_iff_le

end Script.Shift

/-! ### Comments -/

namespace CommentIndex

theorem dropCopies_moved (comments : List SourceComment) :
    dropCopies (comments.map (SourceComment.moved shift)) =
      (dropCopies comments).map (SourceComment.moved shift) := by
  induction comments with
  | nil => rfl
  | cons first rest inductionHypothesis =>
    rw [List.map_cons, dropCopies, dropCopies, inductionHypothesis]
    cases dropCopies rest with
    | nil => rfl
    | cons second more =>
      simp only [List.map_cons, SourceComment.moved, Position.moved, Shift.offset_inj]
      split <;> rfl

theorem docs_moved (comments : List SourceComment) :
    docs (comments.map (SourceComment.moved shift)) =
      (docs comments).map (SourceComment.moved shift) := by
  have isDoc : SourceComment.isDoc ∘ SourceComment.moved shift = SourceComment.isDoc := rfl
  rw [docs, docs, ← dropCopies_moved, List.filter_map, isDoc]
  refine congrArg dropCopies (List.map_mergeSort fun first _ second _ => ?_).symm
  simp only [SourceComment.moved, Position.moved, Shift.offset_le_iff]

/-- Every line has the comment that its line had before, with lines of its own. -/
theorem preceding?_moved (comments : List SourceComment) (line : Nat) :
    (collect (comments.map (SourceComment.moved shift))).preceding? (line + shift.lines) =
      ((collect comments).preceding? line).map (DocComment.moved shift.lines) := by
  have documents (comment : SourceComment) :
      documents (line + shift.lines) (comment.moved shift) = documents line comment := by
    rw [Bool.eq_iff_iff, documents_iff, documents_iff]
    change comment.endLine + shift.lines + 1 = line + shift.lines ↔ _
    omega
  rw [preceding?_collect, preceding?_collect, docs_moved, ← List.map_reverse, List.find?_map,
    show CommentIndex.documents (line + shift.lines) ∘ SourceComment.moved shift =
      CommentIndex.documents line from funext documents, Option.map_map, Option.map_map]
  rfl

end CommentIndex

/-! ### Evidence -/

namespace Evidence

theorem merge_moved (lines : Nat) (earlier later : Evidence) :
    (earlier.moved lines).merge (later.moved lines) = (earlier.merge later).moved lines := by
  simp only [merge, moved, Option.map_or]

/-- Evidence without an origin says the same wherever it is found. -/
theorem moved_of_source {evidence : Evidence} (missing : evidence.source = none) (lines : Nat) :
    evidence.moved lines = evidence := by
  rw [moved, missing, Option.map_none, ← missing]

/-- Only the origin of an entity moves with the evidence on it. -/
theorem toEntity?_moved {evidence : Evidence} (known : evidence.source.isSome) (lines : Nat) :
    (evidence.moved lines).toEntity? = evidence.toEntity?.map (Entity.moved lines) := by
  obtain ⟨origin, found⟩ := Option.isSome_iff_exists.mp known
  simp only [toEntity?, moved, found, Option.map_some, Option.getD_some, Option.map_map]
  rfl

end Evidence

theorem Value.describe_moved (value : Value) (topLevel : Bool)
    (utilityNamespaces : List String) (holder : Evidence) :
    (value.moved shift).describe topLevel utilityNamespaces holder =
      (value.describe topLevel utilityNamespaces holder).moved shift := by
  cases value with
  | extension base members =>
    simp only [Value.moved, describe]
    split
    · rfl
    · cases holder.codeId with
      | none => rfl
      | some id =>
        -- A record holds the names of the class and the member, so only its offset moves.
        simp only [Description.moved, Walk.movedRecords, List.map_map]
        rfl
  | made constructor =>
    simp only [Value.moved, describe]
    split
    · rfl
    · split <;> rfl
  | _ => rfl

/-- A shape tells the same wherever its code stands, but for where the members of a class are. -/
theorem Shape.describe_moved (shape : Shape) (scope : Scope) (utilityNamespaces : List String) :
    (shape.moved shift).describe scope utilityNamespaces =
      (shape.describe scope utilityNamespaces).moved shift := by
  cases shape with
  | classMember name isStatic kind value =>
    cases name with
    | none => rfl
    | some name => exact value.describe_moved _ _ _
  | other => rfl
  | _ => exact Value.describe_moved _ _ _ _

/-! ### Records -/

namespace Walk

theorem record?_moved (pending : List (Nat × Evidence)) (offset : Nat) :
    record? (movedRecords shift pending) (shift.offset offset) =
      (record? pending offset).map (Evidence.moved shift.lines) := by
  have same : (fun entry : Nat × Evidence => entry.1 == shift.offset offset) ∘
      Prod.map shift.offset (Evidence.moved shift.lines) = fun entry => entry.1 == offset :=
    funext fun _ => Shift.offset_beq
  rw [record?, record?, movedRecords, List.find?_map, same, Option.map_map, Option.map_map]
  rfl

/-- Which records are left for other offsets does not depend on where the source stands. -/
theorem dropRecords_moved (offsets : List Nat) (pending : List (Nat × Evidence)) :
    dropRecords (offsets.map shift.offset) (movedRecords shift pending) =
      movedRecords shift (dropRecords offsets pending) := by
  have same : (fun entry : Nat × Evidence => !(offsets.map shift.offset).contains entry.1) ∘
      Prod.map shift.offset (Evidence.moved shift.lines) =
        fun entry => !offsets.contains entry.1 :=
    funext fun entry => Bool.eq_iff_iff.mpr (by simp [Shift.offset_inj])
  rw [dropRecords, dropRecords, movedRecords, List.filter_map, same]
  rfl

theorem dropRecord_moved (offset : Nat) (pending : List (Nat × Evidence)) :
    dropRecord (shift.offset offset) (movedRecords shift pending) =
      movedRecords shift (dropRecord offset pending) := by
  have same : (fun entry : Nat × Evidence => entry.1 != shift.offset offset) ∘
      Prod.map shift.offset (Evidence.moved shift.lines) = fun entry => entry.1 != offset :=
    funext fun _ => congrArg not Shift.offset_beq
  rw [dropRecord, dropRecord, movedRecords, List.filter_map, same]
  rfl

theorem map_fst_movedRecords (records : List (Nat × Evidence)) :
    (movedRecords shift records).map Prod.fst = (records.map Prod.fst).map shift.offset := by
  rw [movedRecords, List.map_map, List.map_map]
  rfl

theorem foldl_leaveRecord_moved (records pending : List (Nat × Evidence)) :
    (movedRecords shift records).foldl leaveRecord (movedRecords shift pending) =
      movedRecords shift (records.foldl leaveRecord pending) := by
  induction records generalizing pending with
  | nil => rfl
  | cons first rest inductionHypothesis =>
    have left : leaveRecord (movedRecords shift pending)
        (Prod.map shift.offset (Evidence.moved shift.lines) first) =
        movedRecords shift (leaveRecord pending first) :=
      congrArg _ (dropRecord_moved first.1 pending)
    rw [List.foldl_cons, ← inductionHypothesis, ← left]
    rfl

end Walk

/-! ### Walking along what is moved -/

/-- One source is the other one moved down, as far as a walk looks at it. -/
structure Surroundings.MovesTo (shift : Shift) (around later : Surroundings) : Prop where
  options : later.options = around.options
  comment : ∀ line, later.comments.preceding? (line + shift.lines) =
    (around.comments.preceding? line).map (DocComment.moved shift.lines)
  lineText : ∀ line, (around.comments.preceding? line).isSome →
    later.lineText (line + shift.lines) = around.lineText line

/-- The text of a line is only looked at if a comment ends before it, so there is no line zero. -/
theorem Surroundings.movesTo_ofParsed (parsed : Parsed) (options : Options) :
    MovesTo shift (ofParsed parsed options) (ofParsed (parsed.moved shift) options) where
  options := rfl
  comment := CommentIndex.preceding?_moved parsed.comments
  lineText line documented := by
    obtain ⟨comment, -, ends⟩ := CommentIndex.preceding?_isSome_iff.mp documented
    have below : line + shift.lines - 1 = shift.above.length + (line - 1) := by
      rw [Shift.lines]
      omega
    change ((shift.above ++ parsed.lines)[line + shift.lines - 1]?).getD "" = _
    rw [below, List.getElem?_append_right (Nat.le_add_right _ _), Nat.add_sub_cancel_left]
    rfl

namespace Walk

variable {around later : Surroundings}

theorem isSome_source_evidence (around : Surroundings) (scope : Scope) (line : Nat)
    (description : Description) (record : Option Evidence) (doc : DocComment) :
    (evidence around scope line description record doc).source.isSome := by
  simp only [evidence, Evidence.source_merge, Option.isSome_or, Option.isSome_some, Bool.or_true]

theorem evidence_moved (moves : around.MovesTo shift later) {line : Nat} {doc : DocComment}
    (documented : around.comments.preceding? line = some doc) {description : Description}
    (openOrigin : description.evidence.source = none) (scope : Scope) (record : Option Evidence) :
    evidence later scope (line + shift.lines) (description.moved shift)
        (record.map (Evidence.moved shift.lines)) (doc.moved shift.lines) =
      (evidence around scope line description record doc).moved shift.lines := by
  have text : later.lineText (line + shift.lines) = around.lineText line :=
    moves.lineText line (by rw [documented, Option.isSome_some])
  have origin : ({ source := some (origin around.options (line + shift.lines)) } : Evidence) =
      Evidence.moved shift.lines { source := some (origin around.options line) } := rfl
  have left : (record.map (Evidence.moved shift.lines)).getD .empty =
      (record.getD .empty).moved shift.lines := by
    cases record <;> rfl
  -- The other layers leave the origin open, so there is nothing in them to move.
  have ofLine := Evidence.moved_of_source
    (Evidence.source_ofLine (around.lineText line) scope.isTopLevel) shift.lines
  have ofShape := Evidence.moved_of_source openOrigin shift.lines
  have ofComment := Evidence.moved_of_source (Evidence.source_ofComment doc.text) shift.lines
  simp only [evidence, ← Evidence.merge_moved, ofLine, ofShape, ofComment, text, moves.options,
    left, ← origin, Description.moved, DocComment.moved]

theorem finding_moved {evidence : Evidence} (known : evidence.source.isSome) (doc : DocComment)
    (lines : Nat) :
    finding (evidence.moved lines) (doc.moved lines) = (finding evidence doc).moved lines := by
  rw [finding, finding, Evidence.toEntity?_moved known]
  cases evidence.toEntity? <;> rfl

theorem doc?_moved (moves : around.MovesTo shift later) (walk : Walk) (line : Nat) :
    (walk.moved shift).doc? later (line + shift.lines) =
      (walk.doc? around line).map (DocComment.moved shift.lines) := by
  have claimed : (walk.claimed.map (· + shift.lines)).contains (line + shift.lines) =
      walk.claimed.contains line :=
    Bool.eq_iff_iff.mpr (by simp)
  rw [doc?, doc?, moves.comment]
  change (if (walk.claimed.map (· + shift.lines)).contains (line + shift.lines) then _ else _) = _
  rw [claimed]
  split <;> rfl

/-- Documenting a site commutes with moving down. -/
theorem document_moved (moves : around.MovesTo shift later) (start : Position) (shape : Shape)
    (walk : Walk) :
    (walk.moved shift).document later (start.moved shift) (shape.moved shift) =
      ((walk.document around start shape).1.moved shift,
        (walk.document around start shape).2.map shift.offset) := by
  have doc := doc?_moved moves walk start.line
  cases found : walk.doc? around start.line with
  | none =>
    rw [found] at doc
    have untouched : (walk.moved shift).doc? later (start.moved shift).line = none := doc
    rw [document, document, found, untouched]
    rfl
  | some comment =>
    rw [found] at doc
    have moved : (walk.moved shift).doc? later (start.moved shift).line =
        some (comment.moved shift.lines) := doc
    have documented := (doc?_eq_some_iff.mp found).2
    have openOrigin := Shape.source_describe shape walk.scope around.options.utilityNamespaces
    rw [document, document, found, moved]
    simp only [Walk.moved, moves.options, Shape.describe_moved, Position.moved]
    generalize shape.describe walk.scope around.options.utilityNamespaces = description
      at openOrigin ⊢
    simp only [Description.records_moved, foldl_leaveRecord_moved, dropRecord_moved, record?_moved,
      evidence_moved moves documented openOrigin, finding_moved (isSome_source_evidence ..),
      map_fst_movedRecords, List.map_append, List.map_cons, List.map_nil]

/-- The walk along a moved outline is the walk along the outline, moved. -/
theorem along_moved (moves : around.MovesTo shift later) (outline : Outline) (walk : Walk) :
    along later (outline.moved shift) (walk.moved shift) =
      (along around outline walk).moved shift := by
  induction outline generalizing walk with
  | nil => rfl
  | site start shape inside after insideHypothesis afterHypothesis =>
    rw [Outline.moved, along, along, document_moved moves]
    simp only
    rw [insideHypothesis, ← afterHypothesis]
    refine congrArg (along later (after.moved shift)) ?_
    simp only [Walk.moved, dropRecords_moved]
  | within segments inside after insideHypothesis afterHypothesis =>
    have walked := insideHypothesis { walk with scope := walk.scope.push segments }
    rw [Outline.moved, along, along, ← afterHypothesis]
    refine congrArg (along later (after.moved shift)) ?_
    exact congrArg (fun walked : Walk => { walked with scope := walked.scope.pop segments.length })
      walked
  | function inside after insideHypothesis afterHypothesis =>
    have walked := insideHypothesis { walk with scope := walk.scope.enter }
    rw [Outline.moved, along, along, ← afterHypothesis]
    refine congrArg (along later (after.moved shift)) ?_
    exact congrArg (fun walked : Walk => { walked with scope := walked.scope.exit }) walked

end Walk

/-- What is found in a source moved down is what is found in the source, moved. -/
theorem findingsOf_moved (parsed : Parsed) (options : Options) :
    findingsOf (parsed.moved shift) options =
      (findingsOf parsed options).map (Finding.moved shift.lines) := by
  have moves : (Surroundings.ofParsed parsed options).MovesTo shift
      (.ofParsed (parsed.moved shift) options) := Surroundings.movesTo_ofParsed parsed options
  have walked := Walk.along_moved moves (Outline.ofProgram parsed.program) {}
  rw [← Outline.ofProgram_moved] at walked
  exact congrArg Walk.findings walked

/-! ### Tables -/

namespace Table

/-- One table holds the entities and the collisions of the other one, some lines further down. -/
structure MovesTo (lines : Nat) (table later : Table) : Prop where
  entries : later.entries = table.entries.map (Entity.moved lines)
  collisions : later.collisions = table.collisions.map (Collision.moved lines)

namespace MovesTo

variable {lines : Nat} {table later : Table}

theorem ids (moves : MovesTo lines table later) : later.ids = table.ids := by
  rw [Table.ids, moves.entries, List.map_map]
  rfl

theorem position?_eq (moves : MovesTo lines table later) (id : String) :
    later.position? id = table.position? id := by
  rw [position?, position?, index_of_ids_eq moves.ids]

theorem get?_eq (moves : MovesTo lines table later) (id : String) :
    later.get? id = (table.get? id).map (Entity.moved lines) :=
  get?_of_entries_map (Entity.id_moved lines) moves.entries id

theorem entries_insert (moves : MovesTo lines table later) (entity : Entity) :
    (later.insert (entity.moved lines)).entries =
      (table.insert entity).entries.map (Entity.moved lines) := by
  have position : later.position? (entity.moved lines).id = table.position? entity.id :=
    moves.position?_eq entity.id
  cases placed : table.position? entity.id with
  | none =>
    rw [placed] at position
    rw [entries_insert_of_none placed, entries_insert_of_none position, moves.entries,
      List.map_append, List.map_singleton]
  | some place =>
    rw [placed] at position
    rw [entries_insert_of_some placed, entries_insert_of_some position, moves.entries, List.map_set]

theorem collisions_insert (moves : MovesTo lines table later) (entity : Entity) :
    (later.insert (entity.moved lines)).collisions =
      (table.insert entity).collisions.map (Collision.moved lines) := by
  have stored : later.get? (entity.moved lines).id =
      (table.get? entity.id).map (Entity.moved lines) := moves.get?_eq entity.id
  cases found : table.get? entity.id with
  | none =>
    rw [found] at stored
    rw [collisions_insert_of_none found, collisions_insert_of_none stored, moves.collisions]
  | some previous =>
    rw [found] at stored
    rw [collisions_insert_of_some found, collisions_insert_of_some stored, moves.collisions,
      List.map_append, List.map_singleton]
    rfl

/-- Storing an entity keeps two tables alike. -/
theorem insert (moves : MovesTo lines table later) (entity : Entity) :
    MovesTo lines (table.insert entity) (later.insert (entity.moved lines)) :=
  ⟨moves.entries_insert entity, moves.collisions_insert entity⟩

theorem insertAll (moves : MovesTo lines table later) (entities : List Entity) :
    MovesTo lines (table.insertAll entities)
      (later.insertAll (entities.map (Entity.moved lines))) := by
  induction entities generalizing table later with
  | nil => exact moves
  | cons first rest inductionHypothesis => exact inductionHypothesis (moves.insert first)

end MovesTo

theorem movesTo_ofFindings (lines : Nat) (findings : List Finding) :
    MovesTo lines (ofFindings findings) (ofFindings (findings.map (Finding.moved lines))) := by
  have entities : (findings.map (Finding.moved lines)).filterMap Finding.entity? =
      (findings.filterMap Finding.entity?).map (Entity.moved lines) := by
    rw [List.filterMap_map, List.map_filterMap]
    exact congrArg (findings.filterMap ·) (funext fun finding => by cases finding <;> rfl)
  rw [ofFindings, ofFindings, entities]
  exact MovesTo.insertAll ⟨rfl, rfl⟩ _

end Table

/-- A source that moves down gives the same namepaths in the same order, the same entities and the
same collisions, but for the lines of their origins, all of which grow by as many lines as come to
stand above the source. -/
theorem moving_down_shifts_lines (parsed : Parsed) (options : Options) (shift : Shift) :
    let table := Table.ofFindings (findingsOf parsed options)
    let later := Table.ofFindings (findingsOf (parsed.moved shift) options)
    later.ids = table.ids ∧
      later.entries = table.entries.map (Entity.moved shift.lines) ∧
      later.collisions = table.collisions.map (Collision.moved shift.lines) := by
  have moves := Table.movesTo_ofFindings shift.lines (findingsOf parsed options)
  rw [← findingsOf_moved] at moves
  exact ⟨moves.ids, moves.entries, moves.collisions⟩

/-- An empty line in front of a source moves it down. -/
example :
    parse? "\n/***/x" false = (parse? "/***/x" false).map (Parsed.moved (.below [""] 1)) :=
  rfl

end DocEntities
