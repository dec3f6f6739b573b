/-
This file says which containers the entities of a source belong to, over whole walks. Inside a
function only the comment can name a container or a base: the line of code and its shape leave
both open there, and a record that a class has left lies outside of all functions. At the top
level, a property of the object that defines a class belongs to the class by the record that was
left for it, under the namepath that the code of the class gives.

Both rest on where the sites of a source that has been read start: those that start together are
inside equally many functions, and no two properties start together.
-/

import DocEntities.Proofs.Run
import DocEntities.Proofs.Script.Statement

namespace DocEntities

open Script

/-! ### The sites of a source -/

theorem nodup_propertyOffsets_of_fit {source : List Char} {depth low high : Nat}
    {sites : List Site} (fit : Fit source depth low high (sites.map Site.mark)) :
    (propertyOffsets sites).Nodup := by
  have distinct := fit.distinct
  rwa [List.filter_map, List.map_map] at distinct

/-- The candidates of a source that has been read fit into its text. -/
theorem Script.exists_fit_candidates {code : String} {elements : Bool} {parsed : Parsed}
    (read : parse? code elements = some parsed) :
    ∃ high, Fit (dropByteOrderMark code.toList) Scope.outermost.depth 0 high
      (parsed.program.candidates.map Site.mark) := by
  obtain ⟨high, spans⟩ := exists_spans_of_parse? read
  have fit := spans.fit Scope.outermost.depth
  rw [← Outline.map_mark_sites, Outline.sites_ofProgram] at fit
  exact ⟨high, fit⟩

/-- The candidates of a source that has been read stand where records need them. -/
theorem Script.placed_candidates {code : String} {elements : Bool} {parsed : Parsed}
    (read : parse? code elements = some parsed) : Walk.Placed parsed.program.candidates := by
  obtain ⟨high, fit⟩ := exists_fit_candidates read
  have marked {site : Site} (member : site ∈ parsed.program.candidates) :
      site.mark ∈ parsed.program.candidates.map Site.mark := List.mem_map_of_mem member
  have distinct := nodup_propertyOffsets_of_fit fit
  exact
    { line := fun site member other otherMember same =>
        (fit.placed _ (marked member)).line_eq (fit.placed _ (marked otherMember)) same
      depth := fun site member other otherMember same =>
        fit.level _ (marked member) _ (marked otherMember) same
      distinct := distinct
      foreseen := parsed.program.foreseen
      agreeing := Program.agreeing distinct }

/-- The walk along a program, as a run. -/
theorem Walk.exists_run (around : Surroundings) (program : Program) :
    ∃ attachments, Run around program.candidates {} attachments
      (along around (.ofProgram program) {}) := by
  have standing : ({} : Walk).scope = Scope.outermost := rfl
  rw [← Outline.sites_ofProgram]
  exact (run_along around (Outline.foretold_ofProgram program) standing).2

/-- The comment of a line is attached to the first site on it. -/
theorem Walk.Attaches.exists_of_find? {around : Surroundings} {sites : List Site}
    {attachments : List Attachment} {walked : Walk}
    (stretch : Attaches around sites {} attachments walked) {line : Nat} {site : Site}
    {doc : DocComment} (first : sites.find? (fun site => site.line == line) = some site)
    (documented : around.comments.preceding? line = some doc) :
    ∃ attachment ∈ attachments, attachment.site = site ∧ attachment.doc = doc := by
  have onLine : site.line = line :=
    beq_iff_eq.mp (List.find?_some (p := fun site : Site => site.line == line) first)
  have claimed := stretch.complete site (List.mem_of_find?_eq_some first)
    (by rw [onLine, documented]; rfl)
  rw [stretch.claimed, List.append_nil, List.mem_reverse, onLine] at claimed
  obtain ⟨attachment, member, rfl⟩ := List.mem_map.mp claimed
  refine ⟨attachment, member, ?_, ?_⟩
  · exact Option.some.inj ((stretch.first attachment member).symm.trans first)
  · exact Option.some.inj ((stretch.fits attachment member).doc.symm.trans documented)

/-- The first site on a line of a source and the comment of the line, once they are computed. -/
theorem Script.exists_documented_site {code : String} {line : Nat} {site : Site} {doc : DocComment}
    (computed : (parse? code false).map (fun parsed =>
        (((Outline.ofProgram parsed.program).sites .outermost).find? (fun site => site.line == line),
          (Surroundings.ofParsed parsed {}).comments.preceding? line)) =
      some (some site, some doc)) :
    ∃ parsed, parse? code false = some parsed ∧
      parsed.program.candidates.find? (fun site => site.line == line) = some site ∧
      (Surroundings.ofParsed parsed {}).comments.preceding? line = some doc := by
  obtain ⟨parsed, read, equal⟩ := Option.map_eq_some_iff.mp computed
  obtain ⟨first, documented⟩ := Prod.mk.inj equal
  rw [Outline.sites_ofProgram] at first
  exact ⟨parsed, read, first, documented⟩

/-! ### Layers of evidence -/

namespace Attachment

variable {around : Surroundings} {attachment : Attachment} {entity : Entity}

/-- What the code alone tells of a site: its origin, its line and its shape. -/
def codeEvidence (around : Surroundings) (attachment : Attachment) : Evidence :=
  (({ source := some (Walk.origin around.options attachment.line) } : Evidence).merge
    (.ofLine (around.lineText attachment.line) attachment.site.scope.isTopLevel)).merge
      (attachment.site.shape.describe attachment.site.scope
        around.options.utilityNamespaces).evidence

theorem evidence_eq (around : Surroundings) (attachment : Attachment) :
    attachment.evidence around =
      ((attachment.codeEvidence around).merge (attachment.record.getD .empty)).merge
        (.ofComment attachment.doc.text) :=
  rfl

theorem toEntity?_of_finding (found : attachment.finding around = .entity entity) :
    (attachment.evidence around).toEntity? = some entity := by
  unfold finding Walk.finding at found
  split at found
  · cases found
    assumption
  · cases found

theorem finding_of_toEntity? (made : (attachment.evidence around).toEntity? = some entity) :
    attachment.finding around = .entity entity := by
  rw [finding, Walk.finding, made]

end Attachment

/-! ### Inside functions -/

/-- Evidence that tells neither what an entity belongs to nor what it inherits from. -/
def Evidence.Unplaced (evidence : Evidence) : Prop :=
  evidence.container = none ∧ evidence.inheritsFrom = none

namespace Evidence

theorem Unplaced.merge {earlier later : Evidence} (first : earlier.Unplaced)
    (second : later.Unplaced) : (earlier.merge later).Unplaced := by
  constructor
  · show later.container.or earlier.container = none
    rw [second.1, first.1, Option.or_none]
  · show later.inheritsFrom.or earlier.inheritsFrom = none
    rw [second.2, first.2, Option.or_none]

/-- A line inside a function tells of no container. -/
theorem unplaced_ofLine (line : String) : (ofLine line false).Unplaced := by
  unfold ofLine
  split
  · exact ⟨rfl, rfl⟩
  · rename_i form _
    cases form <;> exact ⟨rfl, rfl⟩

end Evidence

theorem Value.inheritsFrom_describe (value : Value) (utilityNamespaces : List String)
    (holder : Evidence) :
    (value.describe false utilityNamespaces holder).evidence.inheritsFrom =
      holder.inheritsFrom := by
  cases value with
  | extension base members =>
    simp only [describe]
    split <;> rfl
  | _ => rfl

/-- Code inside a function tells neither a container nor a base, whatever it holds. -/
theorem Shape.unplaced_describe (shape : Shape) {scope : Scope}
    (inside : scope.isTopLevel = false) (utilityNamespaces : List String) :
    (shape.describe scope utilityNamespaces).evidence.Unplaced := by
  have kept (value : Value) {holder : Evidence} (unplaced : holder.Unplaced) :
      (value.describe scope.isTopLevel utilityNamespaces holder).evidence.Unplaced := by
    refine ⟨?_, ?_⟩
    · rw [(value.sameIdentity_describe scope.isTopLevel utilityNamespaces holder).container]
      exact unplaced.1
    · rw [inside, value.inheritsFrom_describe]
      exact unplaced.2
  cases shape with
  | member object name value =>
    refine kept value ?_
    unfold memberEvidence
    split
    · exact ⟨by simp [inside], rfl⟩
    · exact ⟨rfl, rfl⟩
  | binding name value => exact kept value ⟨rfl, rfl⟩
  | property name value =>
    refine kept value ?_
    unfold propertyEvidence
    split
    · exact ⟨rfl, rfl⟩
    · simp only
      split
      · exact ⟨rfl, rfl⟩
      · exact ⟨by simp [inside], rfl⟩
  | classMember name isStatic kind value =>
    cases name with
    | none => exact ⟨rfl, rfl⟩
    | some name => exact kept value ⟨by simp [classMemberEvidence, inside], rfl⟩
  | other => exact ⟨rfl, rfl⟩

/-- Code inside a function leaves no records. -/
theorem Site.records_eq_nil {around : Surroundings} {site : Site} (inside : 0 < site.scope.depth) :
    site.records around = [] := by
  refine List.eq_nil_iff_forall_not_mem.mpr fun entry left => ?_
  exact Nat.ne_of_gt inside (depth_of_mem_records left)

/-- Only the comment says what the entity belongs to and what it inherits from: the line and the
shape of its code leave both open, no record was left for it, and it leaves none itself. -/
structure Attachment.PlacedByComment (around : Surroundings) (attachment : Attachment) : Prop where
  line : (Evidence.ofLine (around.lineText attachment.line)
    attachment.site.scope.isTopLevel).Unplaced
  shape : (attachment.site.shape.describe attachment.site.scope
    around.options.utilityNamespaces).evidence.Unplaced
  record : attachment.record = none
  leaves : attachment.site.records around = []
  container : ∀ entity, attachment.finding around = .entity entity → entity.container =
    (Evidence.ofComment attachment.doc.text).container.filter (fun owner => !owner.isEmpty)
  inheritsFrom : ∀ entity, attachment.finding around = .entity entity →
    entity.inheritsFrom = (Evidence.ofComment attachment.doc.text).inheritsFrom

theorem Attachment.placedByComment {around : Surroundings} {attachment : Attachment}
    (inside : 0 < attachment.site.scope.depth) (record : attachment.record = none) :
    attachment.PlacedByComment around := by
  have notTop : attachment.site.scope.isTopLevel = false :=
    beq_eq_false_iff_ne.mpr (Nat.ne_of_gt inside)
  have line : (Evidence.ofLine (around.lineText attachment.line)
      attachment.site.scope.isTopLevel).Unplaced := by
    rw [notTop]
    exact Evidence.unplaced_ofLine _
  have shape := attachment.site.shape.unplaced_describe notTop around.options.utilityNamespaces
  -- All layers below the comment leave both fields open.
  have below : ((attachment.codeEvidence around).merge
      (attachment.record.getD .empty)).Unplaced := by
    rw [record]
    exact ((Evidence.Unplaced.merge ⟨rfl, rfl⟩ line).merge shape).merge ⟨rfl, rfl⟩
  have container : (attachment.evidence around).container =
      (Evidence.ofComment attachment.doc.text).container := by
    rw [evidence_eq, Evidence.merge, below.1, Option.or_none]
  have inheritsFrom : (attachment.evidence around).inheritsFrom =
      (Evidence.ofComment attachment.doc.text).inheritsFrom := by
    rw [evidence_eq, Evidence.merge, below.2, Option.or_none]
  refine ⟨line, shape, record, Site.records_eq_nil inside, fun entity found => ?_,
    fun entity found => ?_⟩
  all_goals
    obtain ⟨name, -, rfl⟩ := Option.map_eq_some_iff.mp (toEntity?_of_finding found)
  · rw [container]
  · exact inheritsFrom

/-- Over a whole walk, every comment that is attached inside a function places its entity alone. -/
theorem placed_by_comment_inside_functions {code : String} {elements : Bool} {parsed : Parsed}
    (read : parse? code elements = some parsed) (around : Surroundings) :
    ∃ attachments,
      Walk.Attaches around parsed.program.candidates {} attachments
        (Walk.along around (.ofProgram parsed.program) {}) ∧
      ∀ attachment ∈ attachments, 0 < attachment.site.scope.depth →
        attachment.PlacedByComment around := by
  obtain ⟨attachments, run⟩ := Walk.exists_run around parsed.program
  have none : Walk.HoldsRecords {} := fun _ member => nomatch member
  obtain ⟨-, unrecorded⟩ := run.pendingOutside (placed_candidates read) (List.Subset.refl _)
    (fun _ member => nomatch member)
  refine ⟨attachments, run.attaches none, fun attachment member inside => ?_⟩
  exact Attachment.placedByComment inside (unrecorded attachment member inside)

/-- A method of a class holds a documented assignment: the class has left a record for the method,
and still only the comment places what is assigned. -/
def methodSource : String :=
  "/***/\nA=B.extend(\x7bm()\x7b\n/***/\nx.y=1\x7d\x7d)"

theorem exists_site_in_method :
    ∃ parsed, parse? methodSource false = some parsed ∧
      ∃ site, parsed.program.candidates.find? (fun site => site.line == 4) = some site ∧
        0 < site.scope.depth ∧
        ∃ doc, (Surroundings.ofParsed parsed {}).comments.preceding? 4 = some doc := by
  have computed : (parse? methodSource false).map (fun parsed =>
      (((Outline.ofProgram parsed.program).sites .outermost).find? (fun site => site.line == 4),
        (Surroundings.ofParsed parsed {}).comments.preceding? 4)) =
      some (some ⟨⟨["A"], 1⟩, ⟨29, 4⟩, .member (some "x") (some "y") .plain⟩,
        some ⟨"", 3, 3⟩) := by
    simp only [Surroundings.ofParsed, CommentIndex.collect_eq_insertionSort]
    decide +kernel
  obtain ⟨parsed, read, first, documented⟩ := exists_documented_site computed
  exact ⟨parsed, read, _, first, Nat.one_pos, _, documented⟩

theorem placed_by_comment_inside_method :
    ∃ parsed attachments, parse? methodSource false = some parsed ∧
      Walk.Attaches (.ofParsed parsed {}) parsed.program.candidates {} attachments
        (Walk.through parsed {}) ∧
      ∃ attachment ∈ attachments, 0 < attachment.site.scope.depth ∧
        attachment.PlacedByComment (.ofParsed parsed {}) := by
  obtain ⟨parsed, read, site, first, deep, doc, documented⟩ := exists_site_in_method
  obtain ⟨attachments, stretch, placed⟩ :=
    placed_by_comment_inside_functions read (.ofParsed parsed {})
  obtain ⟨attachment, member, rfl, -⟩ := stretch.exists_of_find? first documented
  exact ⟨parsed, attachments, read, stretch, attachment, member, deep,
    placed attachment member deep⟩

/-! ### Members of a class -/

namespace Evidence

theorem isInstanceMember_applyTag (evidence : Evidence) (tag : Tag) :
    (evidence.applyTag tag).isInstanceMember = evidence.isInstanceMember ∨
      (evidence.applyTag tag).isInstanceMember = some true := by
  unfold applyTag
  split <;> first | exact Or.inl rfl | exact Or.inr rfl | skip
  split <;> exact Or.inl rfl

theorem isInstanceMember_ofTagBlock (block : List Char) :
    (ofTagBlock block).isInstanceMember ≠ some false := by
  unfold ofTagBlock ofTags
  generalize List.filterMap _ _ = tags
  suffices kept : ∀ evidence : Evidence, evidence.isInstanceMember ≠ some false →
      (tags.foldl applyTag evidence).isInstanceMember ≠ some false from kept empty nofun
  induction tags with
  | nil => exact fun _ never => never
  | cons tag rest inductionHypothesis =>
    intro evidence never
    refine inductionHypothesis _ ?_
    rcases isInstanceMember_applyTag evidence tag with same | isTrue
    · rwa [same]
    · rw [isTrue]
      exact nofun

/-- No tag says that an entity is not a member of instances. -/
theorem isInstanceMember_ofComment (text : String) :
    (ofComment text).isInstanceMember ≠ some false := by
  unfold ofComment
  simp only
  split
  · exact isInstanceMember_ofTagBlock _
  · split
    · exact nofun
    · split
      · exact nofun
      · show (Evidence.isInstanceMember _).or none ≠ some false
        rw [Option.or_none]
        exact isInstanceMember_ofTagBlock _

end Evidence

namespace Attachment

variable {around : Surroundings}

/-- A comment is attached to a class that `extend` defines: `id` is the namepath that the code of
the class gives, and `members` are the named properties of the object, by the offset at which
they start. -/
structure DefinesClass (around : Surroundings) (owner : Attachment) (id : String)
    (members : List (Nat × String)) : Prop where
  value : ∃ base, owner.site.shape.value = .extension base members ∧
    isUtility around.options.utilityNamespaces base = false
  codeId : (owner.site.shape.describe owner.site.scope
    around.options.utilityNamespaces).evidence.codeId = some id

/-- A class leaves a record for each of its members. -/
theorem DefinesClass.record_mem {owner : Attachment} {id name : String} {offset : Nat}
    {members : List (Nat × String)} (defines : owner.DefinesClass around id members)
    (member : (offset, name) ∈ members) :
    (offset, memberRecord id name) ∈ owner.site.records around := by
  obtain ⟨base, value, notUtility⟩ := defines.value
  exact Shape.mem_records_describe_iff.mpr
    ⟨base, members, id, value, notUtility, defines.codeId, _, member, rfl⟩

/-- The entity of a member whose comment names no container. -/
theorem exists_entity_of_memberRecord {member : Attachment} {id name : String}
    (record : member.record = some (memberRecord id name))
    (unplaced : (Evidence.ofComment member.doc.text).container = none) :
    ∃ entity, member.finding around = .entity entity ∧
      entity.container = (some id).filter (fun owner => !owner.isEmpty) ∧
      entity.isInstanceMember = true := by
  have layers : member.evidence around =
      ((member.codeEvidence around).merge (memberRecord id name)).merge
        (.ofComment member.doc.text) := by
    rw [evidence_eq, record, Option.getD_some]
  have container : (member.evidence around).container = some id := by
    rw [layers, Evidence.merge, unplaced]
    rfl
  have isInstanceMember : (member.evidence around).isInstanceMember = some true := by
    rw [layers]
    show (Evidence.ofComment member.doc.text).isInstanceMember.or (some true) = some true
    cases told : (Evidence.ofComment member.doc.text).isInstanceMember with
    | none => rfl
    | some flag =>
      cases flag with
      | true => rfl
      | false => exact absurd told (Evidence.isInstanceMember_ofComment _)
  obtain ⟨found, named⟩ : ∃ found, (member.evidence around).name = some found := by
    rw [layers]
    show ∃ found, (Evidence.ofComment member.doc.text).name.or (some name) = some found
    cases (Evidence.ofComment member.doc.text).name with
    | none => exact ⟨name, rfl⟩
    | some tagged => exact ⟨tagged, rfl⟩
  have made : member.finding around = .entity _ :=
    finding_of_toEntity? (by rw [Evidence.toEntity?, named, Option.map_some])
  refine ⟨_, made, ?_, ?_⟩
  · rw [container]
  · rw [isInstanceMember, Option.getD_some]

end Attachment

/-- Over a whole walk, the documented properties of an object that defines a class belong to the
class, under the namepath that its code gives: whatever the comment of the class says, and
wherever the class stands. -/
theorem members_of_extension {code : String} {elements : Bool} {parsed : Parsed}
    (read : parse? code elements = some parsed) (around : Surroundings) :
    ∃ attachments,
      Walk.Attaches around parsed.program.candidates {} attachments
        (Walk.along around (.ofProgram parsed.program) {}) ∧
      ∀ owner ∈ attachments, ∀ member ∈ attachments, ∀ id members name,
        owner.DefinesClass around id members →
        (member.site.offset, name) ∈ members → member.site.shape.isProperty = true →
        (Evidence.ofComment member.doc.text).container = none →
        ∃ entity, member.finding around = .entity entity ∧
          entity.container = (some id).filter (fun owner => !owner.isEmpty) ∧
          entity.isInstanceMember = true := by
  obtain ⟨attachments, run⟩ := Walk.exists_run around parsed.program
  have none : Walk.HoldsRecords {} := fun _ member => nomatch member
  refine ⟨attachments, run.attaches none, ?_⟩
  intro owner documented member inAttachments id members name defines isMember property unplaced
  have recalled := run.recalls (placed_candidates read) documented inAttachments property
  have record := recalled _ (defines.record_mem isMember) rfl
  exact Attachment.exists_entity_of_memberRecord record unplaced

/-- The namepath that an entity is stored under, and its container. -/
def keyAndContainer (entity : Entity) : String × Option String :=
  (entity.id, entity.container)

theorem exists_entity_of_map {finding : Finding} {found : String × Option String}
    (known : finding.entity?.map keyAndContainer = some found) :
    ∃ entity, finding = .entity entity ∧ keyAndContainer entity = found := by
  cases finding with
  | entity entity => exact ⟨entity, rfl, Option.some.inj known⟩
  | unnamed line => cases known

/-- The comment of a class gives it another name than its code does. -/
def renamedClassSource : String :=
  "/**@name F*/\nA=B.extend(\x7b\n/***/\nm\x7d)"

theorem exists_renamedClass :
    ∃ parsed, parse? renamedClassSource false = some parsed ∧
      ∀ attachments, Walk.Attaches (.ofParsed parsed {}) parsed.program.candidates {} attachments
          (Walk.through parsed {}) →
        ∃ owner ∈ attachments, ∃ member ∈ attachments,
          owner.DefinesClass (.ofParsed parsed {}) "A" [(32, "m")] ∧
          (owner.finding (.ofParsed parsed {})).entity?.map keyAndContainer = some ("F", none) ∧
          member.site.offset = 32 ∧ member.site.shape.isProperty = true ∧
          (Evidence.ofComment member.doc.text).container = none ∧
          (member.finding (.ofParsed parsed {})).entity?.map keyAndContainer =
            some ("A#m", some "A") := by
  have computed : (parse? renamedClassSource false).map (fun parsed =>
      let first (line : Nat) := ((Outline.ofProgram parsed.program).sites .outermost).find?
        (fun site => site.line == line)
      (first 2, first 4, (Surroundings.ofParsed parsed {}).comments.preceding? 4,
        (Walk.through parsed {}).claimed)) =
      some (some ⟨⟨[], 0⟩, ⟨13, 2⟩, .binding (some "A") (.extension (some "B") [(32, "m")])⟩,
        some ⟨⟨["A"], 0⟩, ⟨32, 4⟩, .property (some "m") .plain⟩, some ⟨"", 3, 3⟩, [4, 2]) := by
    simp only [Walk.through, Surroundings.ofParsed, CommentIndex.collect_eq_insertionSort]
    decide +kernel
  have found : (parse? renamedClassSource false).map (fun parsed =>
      (Walk.through parsed {}).findings.map (fun found => found.entity?.map keyAndContainer)) =
      some [some ("F", none), some ("A#m", some "A")] := by
    simp only [Walk.through, Surroundings.ofParsed, CommentIndex.collect_eq_insertionSort]
    decide +kernel
  obtain ⟨parsed, read, equal⟩ := Option.map_eq_some_iff.mp computed
  simp only [Outline.sites_ofProgram, Prod.mk.injEq] at equal
  obtain ⟨classSite, memberSite, memberDoc, claimed⟩ := equal
  rw [read, Option.map_some, Option.some.injEq] at found
  refine ⟨parsed, read, fun attachments stretch => ?_⟩
  obtain ⟨owner, member, rfl, -, memberLine, ownerSite, ownSite⟩ :=
    stretch.exists_pair claimed
  have doc := (stretch.fits member (by simp)).doc
  rw [classSite, Option.some.injEq] at ownerSite
  rw [memberSite, Option.some.injEq] at ownSite
  rw [memberLine, memberDoc, Option.some.injEq] at doc
  rw [stretch.findings] at found
  refine ⟨owner, by simp, member, by simp, ⟨⟨some "B", ?_, ?_⟩, ?_⟩, ?_, ?_, ?_, ?_, ?_⟩
  · rw [← ownerSite]
    rfl
  · show isUtility ({} : Options).utilityNamespaces (some "B") = false
    decide
  · rw [← ownerSite]
    rfl
  · exact (List.cons.inj found).1
  · rw [← ownSite]
    rfl
  · rw [← ownSite]
    rfl
  · rw [← doc]
    decide
  · exact (List.cons.inj (List.cons.inj found).2).1

theorem member_of_renamedClass :
    ∃ parsed attachments, parse? renamedClassSource false = some parsed ∧
      Walk.Attaches (.ofParsed parsed {}) parsed.program.candidates {} attachments
        (Walk.through parsed {}) ∧
      ∃ owner ∈ attachments, ∃ member ∈ attachments, ∃ entity,
        owner.DefinesClass (.ofParsed parsed {}) "A" [(32, "m")] ∧
        member.finding (.ofParsed parsed {}) = .entity entity ∧
        entity.container = some "A" ∧ entity.isInstanceMember = true := by
  obtain ⟨parsed, read, all⟩ := exists_renamedClass
  obtain ⟨attachments, stretch, belongs⟩ := members_of_extension read (.ofParsed parsed {})
  obtain ⟨owner, documented, member, inAttachments, defines, -, starts, property, unplaced, -⟩ :=
    all attachments stretch
  obtain ⟨entity, found, container, isInstanceMember⟩ := belongs owner documented member
    inAttachments "A" [(32, "m")] "m" defines (by simp [starts]) property unplaced
  exact ⟨parsed, attachments, read, stretch, owner, documented, member, inAttachments, entity,
    defines, found, container, isInstanceMember⟩

/-- A member does not belong to its class under the namepath that the class is stored under. -/
theorem member_not_under_key_of_renamedClass :
    ∃ parsed attachments, parse? renamedClassSource false = some parsed ∧
      Walk.Attaches (.ofParsed parsed {}) parsed.program.candidates {} attachments
        (Walk.through parsed {}) ∧
      ∃ owner ∈ attachments, ∃ member ∈ attachments, ∃ stored entity,
        owner.DefinesClass (.ofParsed parsed {}) "A" [(32, "m")] ∧
        owner.finding (.ofParsed parsed {}) = .entity stored ∧
        member.site.offset = 32 ∧ member.site.shape.isProperty = true ∧
        (Evidence.ofComment member.doc.text).container = none ∧
        member.finding (.ofParsed parsed {}) = .entity entity ∧
        entity.container ≠ some stored.id := by
  obtain ⟨parsed, read, all⟩ := exists_renamedClass
  obtain ⟨attachments, stretch⟩ := Walk.attaches_through parsed {}
  obtain ⟨owner, documented, member, inAttachments, defines, classKey, starts, property, unplaced,
    belongs⟩ := all attachments stretch
  obtain ⟨stored, isStored, key⟩ := exists_entity_of_map classKey
  obtain ⟨entity, isEntity, container⟩ := exists_entity_of_map belongs
  refine ⟨parsed, attachments, read, stretch, owner, documented, member, inAttachments, stored,
    entity, defines, isStored, starts, property, unplaced, isEntity, ?_⟩
  obtain ⟨isF, -⟩ := Prod.mk.inj key
  obtain ⟨-, isA⟩ := Prod.mk.inj container
  rw [isF, isA]
  decide

end DocEntities
