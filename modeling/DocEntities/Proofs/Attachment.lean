/-
This file proves that a walk attaches every comment to the right code. What a walk does along
an outline is said once: it attaches comments to sites, each site the first one on its line,
each line at most once, and no documented line of a site is left out. One site is a step, and
two stretches of a walk join to one, so the statement holds along every outline.

The lines of the entities follow, since neither the code nor the comment says where an entity
stands: the origin comes from the walk alone, and names the line of the site.
-/

import DocEntities.Extraction
import DocEntities.Proofs.CommentIndex
import DocEntities.Proofs.Table
import DocEntities.Proofs.Traversal
import Mathlib.Data.List.Nodup

namespace DocEntities

/-! ### Scopes are given back -/

namespace Scope

theorem pop_push (scope : Scope) (segments : List String) :
    (scope.push segments).pop segments.length = scope := by
  simp [push, pop]

theorem exit_enter (scope : Scope) : scope.enter.exit = scope :=
  rfl

end Scope

/-! ### Records left for the members of a class -/

/-- Evidence is a record for a member of a class. -/
def Evidence.IsMemberRecord (evidence : Evidence) : Prop :=
  ∃ owner name, evidence = memberRecord owner name

theorem Value.isMemberRecord_of_mem_describe {value : Value} {topLevel : Bool}
    {utilityNamespaces : List String} {holder : Evidence} {entry : Nat × Evidence}
    (member : entry ∈ (value.describe topLevel utilityNamespaces holder).records) :
    entry.2.IsMemberRecord := by
  cases value with
  | extension base members =>
    simp only [describe] at member
    split at member
    · cases member
    -- The records are for the members of the object, if the class has a namepath.
    · simp only at member
      split at member
      · cases member
      · obtain ⟨named, _, rfl⟩ := List.mem_map.mp member
        exact ⟨_, _, rfl⟩
  | made constructor =>
    simp only [describe] at member
    split at member
    · cases member
    · split at member <;> cases member
  | _ => cases member

theorem Shape.isMemberRecord_of_mem_describe {shape : Shape} {scope : Scope}
    {utilityNamespaces : List String} {entry : Nat × Evidence}
    (member : entry ∈ (shape.describe scope utilityNamespaces).records) :
    entry.2.IsMemberRecord := by
  unfold describe at member
  split at member
  · exact Value.isMemberRecord_of_mem_describe member
  · exact Value.isMemberRecord_of_mem_describe member
  · exact Value.isMemberRecord_of_mem_describe member
  · exact Value.isMemberRecord_of_mem_describe member
  · cases member
  · cases member

namespace Walk

/-- All that a walk has pending are records for members of classes. -/
def HoldsRecords (walk : Walk) : Prop :=
  ∀ entry ∈ walk.pending, entry.2.IsMemberRecord

theorem mem_foldl_leaveRecord {records pending : List (Nat × Evidence)} {entry : Nat × Evidence}
    (member : entry ∈ records.foldl leaveRecord pending) : entry ∈ records ∨ entry ∈ pending := by
  induction records generalizing pending with
  | nil => exact Or.inr member
  | cons first rest inductionHypothesis =>
    rcases inductionHypothesis member with later | earlier
    · exact Or.inl (List.mem_cons_of_mem _ later)
    · rcases List.mem_cons.mp earlier with rfl | kept
      · exact Or.inl List.mem_cons_self
      · exact Or.inr (List.mem_of_mem_filter kept)

theorem mem_of_record? {pending : List (Nat × Evidence)} {offset : Nat} {record : Evidence}
    (found : record? pending offset = some record) : (offset, record) ∈ pending := by
  obtain ⟨entry, first, rfl⟩ := Option.map_eq_some_iff.mp found
  have starts := List.find?_some (p := fun entry : Nat × Evidence => entry.1 == offset) first
  obtain rfl : entry.1 = offset := beq_iff_eq.mp starts
  exact List.mem_of_find?_eq_some first

end Walk

/-! ### Where an entity stands -/

namespace Evidence

theorem source_merge (earlier later : Evidence) :
    (earlier.merge later).source = later.source.or earlier.source :=
  rfl

theorem source_ofLine (line : String) (topLevel : Bool) : (ofLine line topLevel).source = none := by
  unfold ofLine
  split
  · rfl
  · rename_i form _
    cases form <;> rfl

theorem source_applyTag (evidence : Evidence) (tag : Tag) :
    (evidence.applyTag tag).source = evidence.source := by
  unfold applyTag
  split <;> try rfl
  split <;> rfl

theorem source_ofTagBlock (block : List Char) : (ofTagBlock block).source = none := by
  unfold ofTagBlock ofTags
  generalize List.filterMap _ _ = tags
  suffices kept : ∀ evidence : Evidence,
      (tags.foldl applyTag evidence).source = evidence.source from kept empty
  induction tags with
  | nil => exact fun _ => rfl
  | cons tag rest inductionHypothesis =>
    intro evidence
    rw [List.foldl_cons, inductionHypothesis, source_applyTag]

theorem source_ofComment (text : String) : (ofComment text).source = none := by
  unfold ofComment
  simp only
  split
  · exact source_ofTagBlock _
  · split
    · rfl
    · split
      · rfl
      · rw [source_merge, source_ofTagBlock]
        rfl

end Evidence

theorem Value.source_describe (value : Value) (topLevel : Bool) (utilityNamespaces : List String)
    (holder : Evidence) :
    (value.describe topLevel utilityNamespaces holder).evidence.source = holder.source := by
  cases value with
  | extension base members =>
    simp only [describe]
    split <;> rfl
  | made constructor =>
    simp only [describe]
    split
    · rfl
    · split <;> rfl
  | _ => rfl

theorem Shape.source_describe (shape : Shape) (scope : Scope) (utilityNamespaces : List String) :
    (shape.describe scope utilityNamespaces).evidence.source = none := by
  unfold describe
  split
  · rw [Value.source_describe]
    unfold memberEvidence
    split <;> rfl
  · rw [Value.source_describe]
    rfl
  · rw [Value.source_describe]
    unfold propertyEvidence
    split
    · rfl
    · simp only
      split <;> rfl
  · rw [Value.source_describe]
    rfl
  · rfl
  · rfl

/-! ### Attachments -/

/-- A comment attached to a site, and the record that an enclosing class left for the site. -/
structure Attachment where
  site : Site
  doc : DocComment
  record : Option Evidence

namespace Attachment

/-- The line that is documented. -/
def line (attachment : Attachment) : Nat :=
  attachment.site.line

/-- All evidence on the site. -/
def evidence (around : Surroundings) (attachment : Attachment) : Evidence :=
  Walk.evidence around attachment.site.scope attachment.line
    (attachment.site.shape.describe attachment.site.scope around.options.utilityNamespaces)
    attachment.record attachment.doc

/-- What becomes of the comment. -/
def finding (around : Surroundings) (attachment : Attachment) : Finding :=
  Walk.finding (attachment.evidence around) attachment.doc

/-- The comment is the one of the line, and the record is one for a member of a class. -/
structure Fits (around : Surroundings) (attachment : Attachment) : Prop where
  doc : around.comments.preceding? attachment.line = some attachment.doc
  record : ∀ left, attachment.record = some left → left.IsMemberRecord

theorem source_evidence {around : Surroundings} {attachment : Attachment}
    (fits : attachment.Fits around) :
    (attachment.evidence around).source = some (Walk.origin around.options attachment.line) := by
  have record : (attachment.record.getD .empty).source = none := by
    cases left : attachment.record with
    | none => rfl
    | some evidence =>
      obtain ⟨owner, name, rfl⟩ := fits.record evidence left
      rfl
  unfold evidence Walk.evidence
  rw [Evidence.source_merge, Evidence.source_ofComment, Option.none_or, Evidence.source_merge,
    record, Option.none_or, Evidence.source_merge, Shape.source_describe, Option.none_or,
    Evidence.source_merge, Evidence.source_ofLine, Option.none_or]

/-- An entity stands on the line of the site that its comment is attached to. -/
theorem source_of_entity? {around : Surroundings} {attachment : Attachment} {entity : Entity}
    (fits : attachment.Fits around)
    (found : (attachment.finding around).entity? = some entity) :
    entity.source = Walk.origin around.options attachment.line := by
  unfold finding Walk.finding at found
  split at found
  · rename_i made named
    obtain ⟨name, -, rfl⟩ := Option.map_eq_some_iff.mp named
    cases found
    simp only [source_evidence fits, Option.getD_some]
  · cases found

end Attachment

/-! ### A stretch of a walk -/

namespace Walk

/-- What a walk does along sites: it goes from `walk` to `walked`, and attaches comments. -/
structure Attaches (around : Surroundings) (sites : List Site) (walk : Walk)
    (attachments : List Attachment) (walked : Walk) : Prop where
  scope : walked.scope = walk.scope
  records : walked.HoldsRecords
  claimed : walked.claimed = (attachments.map Attachment.line).reverse ++ walk.claimed
  findings : walked.findings = walk.findings ++ attachments.map (Attachment.finding around)
  fits : ∀ attachment ∈ attachments, attachment.Fits around
  /-- No line is claimed twice, and none that was claimed before. -/
  distinct : (attachments.map Attachment.line).Nodup
  fresh : ∀ attachment ∈ attachments, attachment.line ∉ walk.claimed
  /-- The comment goes to the first site of the line. -/
  first : ∀ attachment ∈ attachments,
    sites.find? (fun site => site.line == attachment.line) = some attachment.site
  /-- No documented line with a site is left out. -/
  complete : ∀ site ∈ sites, (around.comments.preceding? site.line).isSome →
    site.line ∈ walked.claimed

namespace Attaches

variable {around : Surroundings} {walk middle walked : Walk}

theorem nil (records : walk.HoldsRecords) : Attaches around [] walk [] walk where
  scope := rfl
  records := records
  claimed := rfl
  findings := (List.append_nil _).symm
  fits := by simp
  distinct := List.nodup_nil
  fresh := by simp
  first := by simp
  complete := by simp

/-- A site is passed over if its line is claimed or has no comment. -/
theorem pass {site : Site} (records : walk.HoldsRecords)
    (claimed : (around.comments.preceding? site.line).isSome → site.line ∈ walk.claimed) :
    Attaches around [site] walk [] walk where
  scope := rfl
  records := records
  claimed := rfl
  findings := (List.append_nil _).symm
  fits := by simp
  distinct := List.nodup_nil
  fresh := by simp
  first := by simp
  complete := by
    intro other member documented
    rw [List.mem_singleton.mp member] at documented ⊢
    exact claimed documented

/-- Any other site is documented, and its line claimed. -/
theorem single {attachment : Attachment} (fits : attachment.Fits around)
    (fresh : attachment.line ∉ walk.claimed) (scope : walked.scope = walk.scope)
    (records : walked.HoldsRecords) (claimed : walked.claimed = attachment.line :: walk.claimed)
    (findings : walked.findings = walk.findings ++ [attachment.finding around]) :
    Attaches around [attachment.site] walk [attachment] walked where
  scope := scope
  records := records
  claimed := claimed
  findings := findings
  fits := List.forall_mem_singleton.mpr fits
  distinct := List.nodup_singleton _
  fresh := List.forall_mem_singleton.mpr fresh
  first := List.forall_mem_singleton.mpr (List.find?_cons_of_pos (beq_self_eq_true _))
  complete := by
    intro site member _
    rw [List.mem_singleton.mp member, claimed]
    exact List.mem_cons_self

/-- Two stretches of a walk are one. A line of the second is on no site of the first, or the
first would have claimed it. -/
theorem append {sites later : List Site} {attachments rest : List Attachment}
    (stretch : Attaches around sites walk attachments middle)
    (next : Attaches around later middle rest walked) :
    Attaches around (sites ++ later) walk (attachments ++ rest) walked := by
  have claimedMiddle (line : Nat) :
      line ∈ middle.claimed ↔ line ∈ attachments.map Attachment.line ∨ line ∈ walk.claimed := by
    rw [stretch.claimed, List.mem_append, List.mem_reverse]
  refine ⟨next.scope.trans stretch.scope, next.records, ?_, ?_, ?_, ?_, ?_, ?_, ?_⟩
  · rw [next.claimed, stretch.claimed, List.map_append, List.reverse_append, List.append_assoc]
  · rw [next.findings, stretch.findings, List.map_append, List.append_assoc]
  · intro attachment member
    rcases List.mem_append.mp member with earlier | later
    · exact stretch.fits attachment earlier
    · exact next.fits attachment later
  · rw [List.map_append]
    refine List.nodup_append.mpr ⟨stretch.distinct, next.distinct, ?_⟩
    rintro line earlier _ later rfl
    obtain ⟨attachment, member, rfl⟩ := List.mem_map.mp later
    exact next.fresh attachment member ((claimedMiddle _).mpr (Or.inl earlier))
  · intro attachment member
    rcases List.mem_append.mp member with earlier | later
    · exact stretch.fresh attachment earlier
    · exact fun claimed => next.fresh attachment later ((claimedMiddle _).mpr (Or.inr claimed))
  · intro attachment member
    rw [List.find?_append]
    rcases List.mem_append.mp member with earlier | later
    · rw [stretch.first attachment earlier, Option.some_or]
    · have absent : sites.find? (fun site => site.line == attachment.line) = none := by
        refine List.find?_eq_none.mpr fun site siteMember same => ?_
        have sameLine : site.line = attachment.line := beq_iff_eq.mp same
        refine next.fresh attachment later (sameLine ▸ stretch.complete site siteMember ?_)
        rw [sameLine, (next.fits attachment later).doc, Option.isSome_some]
      rw [absent, Option.none_or, next.first attachment later]
  · intro site member documented
    rcases List.mem_append.mp member with earlier | later
    · rw [next.claimed]
      exact List.mem_append_right _ (stretch.complete site earlier documented)
    · exact next.complete site later documented

/-- The scope in which a stretch is walked makes no difference to what becomes of the walk. -/
theorem rescope {sites : List Site} {attachments : List Attachment} {inner : Scope}
    (stretch : Attaches around sites { walk with scope := inner } attachments walked) :
    Attaches around sites walk attachments { walked with scope := walk.scope } where
  scope := rfl
  records := stretch.records
  claimed := stretch.claimed
  findings := stretch.findings
  fits := stretch.fits
  distinct := stretch.distinct
  fresh := stretch.fresh
  first := stretch.first
  complete := stretch.complete

/-- Records may be dropped behind a stretch. -/
theorem dropping {sites : List Site} {attachments : List Attachment}
    (stretch : Attaches around sites walk attachments walked) (offsets : List Nat) :
    Attaches around sites walk attachments
      { walked with pending := dropRecords offsets walked.pending } where
  scope := stretch.scope
  records := fun entry member => stretch.records entry (List.mem_of_mem_filter member)
  claimed := stretch.claimed
  findings := stretch.findings
  fits := stretch.fits
  distinct := stretch.distinct
  fresh := stretch.fresh
  first := stretch.first
  complete := stretch.complete

end Attaches

/-! ### One site, and all sites -/

theorem doc?_eq_some_iff {around : Surroundings} {walk : Walk} {line : Nat} {doc : DocComment} :
    walk.doc? around line = some doc ↔
      line ∉ walk.claimed ∧ around.comments.preceding? line = some doc := by
  unfold doc?
  by_cases claimed : line ∈ walk.claimed
  · rw [if_pos (List.contains_iff_mem.mpr claimed)]
    simp [claimed]
  · rw [if_neg (mt List.contains_iff_mem.mp claimed)]
    exact (and_iff_right claimed).symm

theorem doc?_eq_none_iff {around : Surroundings} {walk : Walk} {line : Nat} :
    walk.doc? around line = none ↔
      line ∈ walk.claimed ∨ around.comments.preceding? line = none := by
  unfold doc?
  by_cases claimed : line ∈ walk.claimed <;> simp [claimed]

theorem attaches_document (around : Surroundings) (start : Script.Position) (shape : Shape)
    {walk : Walk} (records : walk.HoldsRecords) :
    ∃ attachments, Attaches around [⟨walk.scope, start, shape⟩] walk attachments
      (walk.document around start shape).1 := by
  unfold document
  split
  · rename_i undocumented
    refine ⟨[], Attaches.pass records fun documented => ?_⟩
    exact (doc?_eq_none_iff.mp undocumented).resolve_right (Option.isSome_iff_ne_none.mp documented)
  · rename_i doc available
    obtain ⟨unclaimed, preceding⟩ := doc?_eq_some_iff.mp available
    let description := shape.describe walk.scope around.options.utilityNamespaces
    let pending := description.records.foldl leaveRecord walk.pending
    have isRecord : ∀ entry ∈ pending, entry.2.IsMemberRecord := by
      intro entry member
      rcases mem_foldl_leaveRecord member with left | before
      · exact Shape.isMemberRecord_of_mem_describe left
      · exact records entry before
    let attachment : Attachment := ⟨⟨walk.scope, start, shape⟩, doc, record? pending start.offset⟩
    have fits : attachment.Fits around := by
      refine ⟨preceding, fun left found => ?_⟩
      exact isRecord (start.offset, left) (mem_of_record? found)
    exact ⟨[attachment], Attaches.single fits unclaimed rfl
      (fun entry member => isRecord entry (List.mem_of_mem_filter member)) rfl rfl⟩

/-- Along an outline, comments are attached to its sites. -/
theorem attaches_along (around : Surroundings) (outline : Outline) {walk : Walk} {scope : Scope}
    (records : walk.HoldsRecords) (standing : walk.scope = scope) :
    ∃ attachments, Attaches around (outline.sites scope) walk attachments
      (along around outline walk) := by
  induction outline generalizing walk scope with
  | nil => exact ⟨[], Attaches.nil records⟩
  | site start shape inside after insideHypothesis afterHypothesis =>
    -- The site comes first and its inside next; the records left for it are dropped behind.
    obtain ⟨own, document⟩ := attaches_document around start shape records
    obtain ⟨inner, walkInside⟩ :=
      insideHypothesis document.records (document.scope.trans standing)
    have upTo := (document.append walkInside).dropping (walk.document around start shape).2
    obtain ⟨rest, walkAfter⟩ := afterHypothesis upTo.records (upTo.scope.trans standing)
    subst standing
    exact ⟨_, upTo.append walkAfter⟩
  | within segments inside after insideHypothesis afterHypothesis =>
    subst standing
    have entered : HoldsRecords { walk with scope := walk.scope.push segments } := records
    obtain ⟨inner, walkInside⟩ := insideHypothesis entered rfl
    obtain ⟨rest, walkAfter⟩ := afterHypothesis walkInside.rescope.records rfl
    -- As the inside gives its scope back, leaving the containers gives back that of the walk.
    rw [Outline.sites, along, walkInside.scope, Scope.pop_push]
    exact ⟨_, walkInside.rescope.append walkAfter⟩
  | function inside after insideHypothesis afterHypothesis =>
    subst standing
    have entered : HoldsRecords { walk with scope := walk.scope.enter } := records
    obtain ⟨inner, walkInside⟩ := insideHypothesis entered rfl
    obtain ⟨rest, walkAfter⟩ := afterHypothesis walkInside.rescope.records rfl
    rw [Outline.sites, along, walkInside.scope, Scope.exit_enter]
    exact ⟨_, walkInside.rescope.append walkAfter⟩

end Walk

/-! ### The lines of entities -/

/-- The entities of attachments stand on lines of the attachments, in order. -/
theorem sublist_lines_of_entities {around : Surroundings} {attachments : List Attachment}
    (fits : ∀ attachment ∈ attachments, attachment.Fits around) :
    (((attachments.map (Attachment.finding around)).filterMap Finding.entity?).map
        (fun entity => entity.source.line)).Sublist (attachments.map Attachment.line) := by
  induction attachments with
  | nil => exact List.Sublist.slnil
  | cons attachment rest inductionHypothesis =>
    have later := inductionHypothesis fun other member => fits other (List.mem_cons_of_mem _ member)
    rw [List.map_cons, List.map_cons]
    cases found : (attachment.finding around).entity? with
    | none =>
      rw [List.filterMap_cons_none found]
      exact later.cons _
    | some entity =>
      have source := Attachment.source_of_entity? (fits attachment List.mem_cons_self) found
      rw [List.filterMap_cons_some found, List.map_cons, source]
      exact later.cons_cons _

/-- Every finding is stored, replaced by a later one, or has no name. -/
theorem size_add_collisions_ofFindings (findings : List Finding) :
    (Table.ofFindings findings).size + (Table.ofFindings findings).collisions.length +
      findings.countP (fun finding => finding.entity?.isNone) = findings.length := by
  have stored :
      (Table.ofFindings findings).size + (Table.ofFindings findings).collisions.length =
        0 + 0 + (findings.filterMap Finding.entity?).length :=
    Table.size_add_collisions_insertAll .empty (findings.filterMap Finding.entity?)
  have named : (fun finding : Finding => finding.entity?.isNone) =
      fun finding => decide (¬finding.entity?.isSome = true) := by
    funext finding
    cases finding.entity? <;> rfl
  rw [stored, List.length_filterMap_eq_countP, named, Nat.zero_add,
    ← List.length_eq_countP_add_countP]

/-! ### A whole source -/

/-- The walk through a source that has been read. -/
def Walk.through (parsed : Script.Parsed) (options : Options) : Walk :=
  Walk.along (.ofParsed parsed options) (.ofProgram parsed.program) {}

theorem Walk.attaches_through (parsed : Script.Parsed) (options : Options) :
    ∃ attachments, Attaches (.ofParsed parsed options) parsed.program.candidates {} attachments
      (through parsed options) := by
  rw [← Outline.sites_ofProgram]
  exact attaches_along _ _ (fun _ member => nomatch member) rfl

/-- Where two lines are claimed, two comments are attached, each to the first site of its line. -/
theorem Walk.Attaches.exists_pair {around : Surroundings} {sites : List Site}
    {attachments : List Attachment} {walked : Walk}
    (stretch : Attaches around sites {} attachments walked) {first second : Nat}
    (claimed : walked.claimed = [second, first]) :
    ∃ earlier later, attachments = [earlier, later] ∧ earlier.line = first ∧
      later.line = second ∧
      sites.find? (fun site => site.line == first) = some earlier.site ∧
      sites.find? (fun site => site.line == second) = some later.site := by
  have lines : attachments.map Attachment.line = [first, second] := by
    have reversed := stretch.claimed.symm.trans claimed
    rwa [List.append_nil, List.reverse_eq_iff] at reversed
  obtain ⟨earlier, later, rfl⟩ : ∃ earlier later, attachments = [earlier, later] :=
    List.length_eq_two.mp (by simpa using congrArg List.length lines)
  simp only [List.map_cons, List.map_nil, List.cons.injEq, and_true] at lines
  obtain ⟨rfl, rfl⟩ := lines
  exact ⟨earlier, later, rfl, rfl, rfl, stretch.first earlier (by simp),
    stretch.first later (by simp)⟩

/-- A candidate of a program starts on a line. -/
def Script.Program.StartsOn (program : Script.Program) (line : Nat) : Prop :=
  ∃ place site, program.Holds place ∧ place.site? = some site ∧ site.line = line

theorem Script.Program.startsOn_iff {program : Script.Program} {line : Nat} :
    program.StartsOn line ↔ ∃ site ∈ program.candidates, site.line = line := by
  constructor
  · rintro ⟨place, site, holds, isSite, onLine⟩
    exact ⟨site, List.mem_filterMap.mpr ⟨place, mem_traversal_iff.mpr holds, isSite⟩, onLine⟩
  · rintro ⟨site, member, onLine⟩
    obtain ⟨place, visited, isSite⟩ := List.mem_filterMap.mp member
    exact ⟨place, site, mem_traversal_iff.mp visited, isSite, onLine⟩

/-- A line is documented by the first candidate that starts on it and by a comment that ends
on the line before, and the finding is what becomes of that comment. -/
def DocumentedAs (parsed : Script.Parsed) (options : Options) (line : Nat) (finding : Finding) :
    Prop :=
  ∃ attachment : Attachment,
    parsed.program.candidates.find? (fun site => site.line == line) = some attachment.site ∧
    (∃ comment ∈ CommentIndex.docs parsed.comments,
      comment.toDoc = attachment.doc ∧ comment.endLine + 1 = line) ∧
    attachment.Fits (.ofParsed parsed options) ∧
    attachment.finding (.ofParsed parsed options) = finding

namespace Walk.Attaches

variable {parsed : Script.Parsed} {options : Options} {attachments : List Attachment} {walk : Walk}

theorem mem_claimed_iff
    (stretch : Attaches (.ofParsed parsed options) parsed.program.candidates {} attachments walk)
    {line : Nat} :
    line ∈ walk.claimed ↔
      (∃ comment ∈ CommentIndex.docs parsed.comments, comment.endLine + 1 = line) ∧
        parsed.program.StartsOn line := by
  rw [Script.Program.startsOn_iff, ← CommentIndex.preceding?_isSome_iff]
  constructor
  · intro claimed
    rw [stretch.claimed, List.append_nil, List.mem_reverse] at claimed
    obtain ⟨attachment, member, rfl⟩ := List.mem_map.mp claimed
    have documented := (stretch.fits attachment member).doc
    have found := stretch.first attachment member
    exact ⟨Option.isSome_of_mem documented, attachment.site, List.mem_of_find?_eq_some found, rfl⟩
  · rintro ⟨documented, site, member, rfl⟩
    exact stretch.complete site member documented

theorem documentedAs
    (stretch : Attaches (.ofParsed parsed options) parsed.program.candidates {} attachments walk) :
    List.Forall₂ (DocumentedAs parsed options) walk.claimed.reverse walk.findings := by
  rw [stretch.claimed, stretch.findings, List.append_nil, List.reverse_reverse]
  show List.Forall₂ _ (attachments.map _) (attachments.map _)
  rw [List.forall₂_map_left_iff, List.forall₂_map_right_iff, List.forall₂_same]
  intro attachment member
  have fits := stretch.fits attachment member
  exact ⟨attachment, stretch.first attachment member,
    CommentIndex.exists_of_preceding? fits.doc, fits, rfl⟩

theorem claimed_nodup
    (stretch : Attaches (.ofParsed parsed options) parsed.program.candidates {} attachments walk) :
    walk.claimed.Nodup := by
  rw [stretch.claimed, List.append_nil, List.nodup_reverse]
  exact stretch.distinct

theorem sublist_claimed
    (stretch : Attaches (.ofParsed parsed options) parsed.program.candidates {} attachments walk) :
    ((walk.findings.filterMap Finding.entity?).map (fun entity => entity.source.line)).Sublist
      walk.claimed.reverse := by
  rw [stretch.claimed, stretch.findings, List.append_nil, List.reverse_reverse]
  exact sublist_lines_of_entities stretch.fits

end Walk.Attaches

/-- Every comment is used at most once and attached to the right code. The claimed lines are
those behind a comment on which a candidate starts; each is documented once, by the first
candidate on it; so entities stand on different lines, each behind a comment, and every
claimed line is accounted for. -/
theorem each_comment_attached_once (parsed : Script.Parsed) (options : Options) :
    let walk := Walk.through parsed options
    let docs := CommentIndex.docs parsed.comments
    let entities := (findingsOf parsed options).filterMap Finding.entity?
    let table := Table.ofFindings (findingsOf parsed options)
    (∀ line, line ∈ walk.claimed ↔
      (∃ comment ∈ docs, comment.endLine + 1 = line) ∧ parsed.program.StartsOn line) ∧
    walk.claimed.Nodup ∧
    List.Forall₂ (DocumentedAs parsed options) walk.claimed.reverse (findingsOf parsed options) ∧
    (entities.map (fun entity => entity.source.line)).Nodup ∧
    (∀ entity ∈ entities, ∃ comment ∈ docs, entity.source.line = comment.endLine + 1) ∧
    table.size + table.collisions.length +
      (findingsOf parsed options).countP (fun finding => finding.entity?.isNone) =
        walk.claimed.length ∧
    walk.claimed.length ≤ (CommentIndex.collect parsed.comments).size ∧
    (CommentIndex.collect parsed.comments).size ≤ docs.length := by
  intro walk docs entities table
  obtain ⟨attachments, stretch⟩ := Walk.attaches_through parsed options
  have isClaimed : ∀ line, line ∈ walk.claimed ↔ _ := fun _ => stretch.mem_claimed_iff
  have distinct : walk.claimed.Nodup := stretch.claimed_nodup
  have documented : List.Forall₂ (DocumentedAs parsed options) walk.claimed.reverse
      (findingsOf parsed options) := stretch.documentedAs
  have onClaimed : (entities.map (fun entity => entity.source.line)).Sublist
      walk.claimed.reverse := stretch.sublist_claimed
  refine ⟨isClaimed, distinct, documented, ?_, ?_, ?_, ?_, CommentIndex.size_collect_le _⟩
  · exact onClaimed.nodup (List.nodup_reverse.mpr distinct)
  · intro entity member
    have line := onClaimed.subset (List.mem_map_of_mem member)
    obtain ⟨⟨comment, collected, behind⟩, -⟩ := (isClaimed _).mp (List.mem_reverse.mp line)
    exact ⟨comment, collected, behind.symm⟩
  · rw [size_add_collisions_ofFindings, ← documented.length_eq, List.length_reverse]
  · refine CommentIndex.length_le_size distinct fun line member => ?_
    exact CommentIndex.preceding?_isSome_iff.mpr ((isClaimed line).mp member).1

end DocEntities
