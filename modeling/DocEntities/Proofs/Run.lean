/-
This file says event by event what a walk does with its records. A site is passed over, or a
comment is attached to it; a site that a comment is attached to leaves its records and takes the
one that was left for it; and behind the inside of a site its records are dropped. A stretch of
a walk is made of such events, and what holds of a walk follows from what each event keeps.

Two things are kept. Every record that is pending is for a site outside of all functions. And
the record that a documented site has left for a property is pending until the line of the
property is claimed, unless nothing documents that line; since the records are kept by offset,
this needs that sites with the same offset are on the same line, and that no two sites leave
different records for one offset.
-/

import DocEntities.Proofs.Attachment
import DocEntities.Proofs.ClassMembers
import DocEntities.Proofs.CodeIdentity
import Mathlib.Data.List.Pairwise

namespace DocEntities

/-! ### The records that a site leaves -/

/-- Whether a class is no class: its base is a namespace of helper functions. -/
def isUtility (utilityNamespaces : List String) (base : Option String) : Bool :=
  (base.map utilityNamespaces.contains).getD false

theorem Value.mem_records_describe_iff {value : Value} {topLevel : Bool}
    {utilityNamespaces : List String} {holder : Evidence} {entry : Nat × Evidence} :
    entry ∈ (value.describe topLevel utilityNamespaces holder).records ↔
      ∃ base members id, value = .extension base members ∧
        isUtility utilityNamespaces base = false ∧ holder.codeId = some id ∧
        ∃ member ∈ members, (member.1, memberRecord id member.2) = entry := by
  cases value with
  | extension base members =>
    simp only [describe]
    split
    · rename_i utility
      refine iff_of_false List.not_mem_nil ?_
      rintro ⟨_, _, _, equal, plain, -⟩
      cases equal
      exact absurd utility (Bool.eq_false_iff.mp plain)
    · rename_i plain
      cases holder.codeId with
      | none => simp
      | some id =>
        simp only [List.mem_map, extension.injEq, Option.some.injEq]
        constructor
        · intro found
          exact ⟨base, members, id, ⟨rfl, rfl⟩, Bool.eq_false_iff.mpr plain, rfl, found⟩
        · rintro ⟨_, _, _, ⟨rfl, rfl⟩, -, rfl, found⟩
          exact found
  | made constructor =>
    simp only [describe]
    split
    · simp
    · split <;> simp
  | _ => simp [describe]

/-- A site leaves records if it defines a class and its code gives it a namepath. -/
theorem Shape.mem_records_describe_iff {shape : Shape} {scope : Scope}
    {utilityNamespaces : List String} {entry : Nat × Evidence} :
    entry ∈ (shape.describe scope utilityNamespaces).records ↔
      ∃ base members id, shape.value = .extension base members ∧
        isUtility utilityNamespaces base = false ∧
        (shape.describe scope utilityNamespaces).evidence.codeId = some id ∧
        ∃ member ∈ members, (member.1, memberRecord id member.2) = entry := by
  have codeId := fun (value : Value) holder =>
    (value.sameIdentity_describe scope.isTopLevel utilityNamespaces holder).codeId
  cases shape with
  | classMember name isStatic kind value =>
    cases name with
    | none => simp [describe]
    | some name => simp only [describe, Value.mem_records_describe_iff, codeId, Shape.value]
  | other => simp [describe]
  | _ => simp only [describe, Value.mem_records_describe_iff, codeId, Shape.value]

/-- The code gives a namepath only outside of functions. -/
theorem Shape.isTopLevel_of_codeId {shape : Shape} {scope : Scope}
    {utilityNamespaces : List String} {id : String}
    (told : (shape.describe scope utilityNamespaces).evidence.codeId = some id) :
    scope.isTopLevel = true := by
  have codeId := fun (value : Value) holder =>
    (value.sameIdentity_describe scope.isTopLevel utilityNamespaces holder).codeId
  by_contra inside
  cases shape with
  | binding name value => simp [describe, codeId, bindingEvidence, inside] at told
  | member object name value =>
    simp only [describe, codeId] at told
    unfold memberEvidence at told
    split at told <;> simp [inside] at told
  | property name value =>
    simp only [describe, codeId] at told
    unfold propertyEvidence at told
    split at told
    · cases told
    · simp only [if_neg inside] at told
      split at told <;> cases told
  | classMember name isStatic kind value =>
    cases name with
    | none => cases told
    | some name => simp [describe, codeId, classMemberEvidence, inside] at told
  | other => cases told

namespace Site

/-- The records that a site leaves when it is documented. -/
def records (around : Surroundings) (site : Site) : List (Nat × Evidence) :=
  (site.shape.describe site.scope around.options.utilityNamespaces).records

variable {around : Surroundings} {site : Site} {entry : Nat × Evidence}

theorem fst_mem_memberOffsets (left : entry ∈ site.records around) :
    entry.1 ∈ site.memberOffsets := by
  obtain ⟨base, members, id, value, -, -, member, inMembers, rfl⟩ :=
    Shape.mem_records_describe_iff.mp left
  rw [memberOffsets, value]
  exact List.mem_map_of_mem inMembers

theorem depth_of_mem_records (left : entry ∈ site.records around) : site.scope.depth = 0 := by
  obtain ⟨base, members, id, -, -, codeId, -⟩ := Shape.mem_records_describe_iff.mp left
  exact beq_iff_eq.mp (Shape.isTopLevel_of_codeId codeId)

end Site

/-- Sites leave one record for an offset, whichever of them leaves it. -/
theorem record_unique {around : Surroundings} {sites : List Site}
    (distinct : (propertyOffsets sites).Nodup) (foreseen : Foreseen sites)
    (agreeing : Agreeing sites) {site other : Site} (inside : site ∈ sites)
    (otherInside : other ∈ sites)
    {entry otherEntry : Nat × Evidence} (left : entry ∈ site.records around)
    (otherLeft : otherEntry ∈ other.records around) (same : entry.1 = otherEntry.1) :
    entry.2 = otherEntry.2 := by
  have toldToo : entry.1 ∈ other.memberOffsets := same ▸ Site.fst_mem_memberOffsets otherLeft
  obtain ⟨sameScope, sameShape⟩ := agreeing site inside other otherInside entry.1
    (Site.fst_mem_memberOffsets left) toldToo
  rw [Site.records, ← sameScope, ← sameShape] at otherLeft
  obtain ⟨base, members, id, value, -, codeId, member, inMembers, rfl⟩ :=
    Shape.mem_records_describe_iff.mp left
  obtain ⟨_, _, _, otherValue, -, otherCodeId, otherMember, otherInMembers, rfl⟩ :=
    Shape.mem_records_describe_iff.mp otherLeft
  rw [value] at otherValue
  cases otherValue
  rw [codeId] at otherCodeId
  cases otherCodeId
  have offsets : (members.map Prod.fst).Nodup := by
    have shown := (foreseen.shownIn inside).sublist
    rw [Site.memberOffsets, value] at shown
    exact distinct.sublist shown
  have equal : member = otherMember :=
    List.inj_on_of_nodup_map offsets inMembers otherInMembers same
  rw [equal]

/-! ### Pending records -/

namespace Walk

theorem record?_dropRecord {pending : List (Nat × Evidence)} {offset other : Nat}
    (different : offset ≠ other) :
    record? (dropRecord other pending) offset = record? pending offset := by
  unfold record? dropRecord
  rw [List.find?_filter]
  congr 2
  funext entry
  by_cases here : entry.1 = offset
  · simp [here, different]
  · simp [here]

theorem record?_dropRecords {pending : List (Nat × Evidence)} {offset : Nat} {offsets : List Nat}
    (kept : offset ∉ offsets) :
    record? (dropRecords offsets pending) offset = record? pending offset := by
  unfold record? dropRecords
  rw [List.find?_filter]
  congr 2
  funext entry
  by_cases here : entry.1 = offset
  · simp [here, kept]
  · simp [here]

theorem record?_leaveRecord (pending : List (Nat × Evidence)) (entry : Nat × Evidence)
    (offset : Nat) :
    record? (leaveRecord pending entry) offset =
      if entry.1 = offset then some entry.2 else record? pending offset := by
  by_cases here : entry.1 = offset
  · rw [if_pos here]
    simp [record?, leaveRecord, here]
  · have later : record? (leaveRecord pending entry) offset =
        record? (dropRecord entry.1 pending) offset := by
      rw [record?, leaveRecord, List.find?_cons_of_neg (by simpa using here), record?]
    rw [if_neg here, later, record?_dropRecord (Ne.symm here)]

theorem record?_foldl_leaveRecord_of_none {records : List (Nat × Evidence)}
    (pending : List (Nat × Evidence)) {offset : Nat}
    (none : ∀ entry ∈ records, entry.1 ≠ offset) :
    record? (records.foldl leaveRecord pending) offset = record? pending offset := by
  induction records generalizing pending with
  | nil => rfl
  | cons first rest inductionHypothesis =>
    have later := inductionHypothesis (leaveRecord pending first) fun entry member =>
      none entry (List.mem_cons_of_mem _ member)
    rw [List.foldl_cons, later, record?_leaveRecord, if_neg (none first List.mem_cons_self)]

/-- Among records that agree on an offset, any of them is found for it. -/
theorem record?_foldl_leaveRecord {records : List (Nat × Evidence)}
    (pending : List (Nat × Evidence)) {entry : Nat × Evidence} (left : entry ∈ records)
    (unique : ∀ other ∈ records, other.1 = entry.1 → other.2 = entry.2) :
    record? (records.foldl leaveRecord pending) entry.1 = some entry.2 := by
  induction records generalizing pending entry with
  | nil => cases left
  | cons first rest inductionHypothesis =>
    have uniqueRest : ∀ other ∈ rest, other.1 = entry.1 → other.2 = entry.2 :=
      fun other member => unique other (List.mem_cons_of_mem _ member)
    rw [List.foldl_cons]
    -- A later record for the offset says the same, and takes the place of this one.
    by_cases later : ∃ other ∈ rest, other.1 = entry.1
    · obtain ⟨other, member, same⟩ := later
      have agrees := uniqueRest other member same
      have uniqueOther : ∀ further ∈ rest, further.1 = other.1 → further.2 = other.2 :=
        fun further inRest equal => (uniqueRest further inRest (equal.trans same)).trans agrees.symm
      rw [← same, ← agrees]
      exact inductionHypothesis _ member uniqueOther
    · have none : ∀ other ∈ rest, other.1 ≠ entry.1 := fun other member same =>
        later ⟨other, member, same⟩
      have equal : entry = first :=
        (List.mem_cons.mp left).resolve_right fun member => none entry member rfl
      rw [record?_foldl_leaveRecord_of_none _ none, record?_leaveRecord, if_pos (by rw [equal]),
        equal]

/-! ### Stretches of a walk -/

variable {around : Surroundings}

/-- The comment attached to a site, with the record left for the site. -/
def attachment (around : Surroundings) (walk : Walk) (site : Site) (doc : DocComment) :
    Attachment :=
  ⟨site, doc, record? ((site.records around).foldl leaveRecord walk.pending) site.offset⟩

/-- The walk behind a site that a comment is attached to. -/
def attach (around : Surroundings) (walk : Walk) (site : Site) (doc : DocComment) : Walk :=
  { walk with
    claimed := site.line :: walk.claimed
    pending := dropRecord site.offset ((site.records around).foldl leaveRecord walk.pending)
    findings := walk.findings ++ [(walk.attachment around site doc).finding around] }

/-- What a walk does along sites, event by event: it goes from one state to another, and attaches
comments. -/
inductive Run (around : Surroundings) :
    List Site → Walk → List Attachment → Walk → Prop
  | stay (walk : Walk) : Run around [] walk [] walk
  /-- A site is passed over if its line is claimed or has no comment. -/
  | pass {site : Site} {walk : Walk} (undocumented : walk.doc? around site.line = none) :
    Run around [site] walk [] walk
  | attach {site : Site} {walk : Walk} {doc : DocComment}
    (documented : walk.doc? around site.line = some doc) :
    Run around [site] walk [walk.attachment around site doc] (walk.attach around site doc)
  | append {sites later : List Site} {walk middle walked : Walk}
    {attachments rest : List Attachment} (run : Run around sites walk attachments middle)
    (next : Run around later middle rest walked) :
    Run around (sites ++ later) walk (attachments ++ rest) walked
  /-- Records are dropped behind the sites they were left for. -/
  | drop {sites : List Site} {walk walked : Walk} {attachments : List Attachment}
    (offsets : List Nat) (visited : ∀ offset ∈ offsets, ∃ site ∈ sites, site.offset = offset)
    (run : Run around sites walk attachments walked) :
    Run around sites walk attachments
      { walked with pending := dropRecords offsets walked.pending }
  /-- Containers and functions are left as they were entered. -/
  | rescope {sites : List Site} {walk walked : Walk} {attachments : List Attachment}
    (inner : Scope) (run : Run around sites { walk with scope := inner } attachments walked) :
    Run around sites walk attachments { walked with scope := walk.scope }

theorem document_of_none {walk : Walk} {start : Script.Position} {shape : Shape}
    (undocumented : walk.doc? around start.line = none) :
    walk.document around start shape = (walk, []) := by
  rw [document, undocumented]

theorem document_of_some {walk : Walk} {start : Script.Position} {shape : Shape}
    {doc : DocComment} (documented : walk.doc? around start.line = some doc) :
    walk.document around start shape =
      (walk.attach around ⟨walk.scope, start, shape⟩ doc,
        (Site.records around ⟨walk.scope, start, shape⟩).map Prod.fst) := by
  rw [document, documented]
  rfl

theorem run_document (around : Surroundings) (start : Script.Position) (shape : Shape)
    (walk : Walk) :
    ∃ attachments, Run around [⟨walk.scope, start, shape⟩] walk attachments
      (walk.document around start shape).1 := by
  cases found : walk.doc? around start.line with
  | none =>
    rw [document_of_none found]
    exact ⟨_, .pass found⟩
  | some doc =>
    rw [document_of_some found]
    exact ⟨_, .attach found⟩

theorem scope_document (around : Surroundings) (start : Script.Position) (shape : Shape)
    (walk : Walk) : (walk.document around start shape).1.scope = walk.scope := by
  cases found : walk.doc? around start.line with
  | none => rw [document_of_none found]
  | some doc => rw [document_of_some found]; rfl

theorem mem_memberOffsets_of_mem_document {start : Script.Position} {shape : Shape} {walk : Walk}
    {offset : Nat} (left : offset ∈ (walk.document around start shape).2) :
    offset ∈ shape.value.memberOffsets := by
  cases found : walk.doc? around start.line with
  | none =>
    rw [document_of_none found] at left
    cases left
  | some doc =>
    rw [document_of_some found] at left
    obtain ⟨entry, member, rfl⟩ := List.mem_map.mp left
    exact Site.fst_mem_memberOffsets member

/-- A walk along an outline is a run, if members are foretold, and gives the scope back. -/
theorem run_along (around : Surroundings) {outline : Outline} (foretold : outline.Foretold)
    {walk : Walk} {scope : Scope} (standing : walk.scope = scope) :
    (along around outline walk).scope = scope ∧
      ∃ attachments, Run around (outline.sites scope) walk attachments
        (along around outline walk) := by
  induction outline generalizing walk scope with
  | nil => exact ⟨standing, [], .stay walk⟩
  | site start shape inside after insideHypothesis afterHypothesis =>
    obtain ⟨members, foretoldInside, foretoldAfter⟩ := foretold
    subst standing
    obtain ⟨own, runHere⟩ := run_document around start shape walk
    obtain ⟨back, inner, runInside⟩ :=
      insideHypothesis foretoldInside (scope_document around start shape walk)
    have visited : ∀ offset ∈ (walk.document around start shape).2,
        ∃ site ∈ [⟨walk.scope, start, shape⟩] ++ inside.sites walk.scope, site.offset = offset := by
      intro offset left
      obtain ⟨found, inInside, starts⟩ :=
        members walk.scope offset (mem_memberOffsets_of_mem_document left)
      exact ⟨found, List.mem_append_right _ inInside, starts⟩
    have runSite := (runHere.append runInside).drop _ visited
    have dropped : ({ along around inside (walk.document around start shape).1 with
        pending := dropRecords (walk.document around start shape).2
          (along around inside (walk.document around start shape).1).pending } : Walk).scope =
        walk.scope := back
    obtain ⟨last, rest, runAfter⟩ := afterHypothesis foretoldAfter dropped
    exact ⟨last, _, runSite.append runAfter⟩
  | within segments inside after insideHypothesis afterHypothesis =>
    obtain ⟨foretoldInside, foretoldAfter⟩ := foretold
    subst standing
    have entered : ({ walk with scope := walk.scope.push segments } : Walk).scope =
        walk.scope.push segments := rfl
    obtain ⟨back, inner, runInside⟩ := insideHypothesis foretoldInside entered
    have left : ({ along around inside { walk with scope := walk.scope.push segments } with
        scope := walk.scope } : Walk).scope = walk.scope := rfl
    obtain ⟨last, rest, runAfter⟩ := afterHypothesis foretoldAfter left
    rw [Outline.sites, along, back, Scope.pop_push]
    exact ⟨last, _, (Run.rescope _ runInside).append runAfter⟩
  | function inside after insideHypothesis afterHypothesis =>
    obtain ⟨foretoldInside, foretoldAfter⟩ := foretold
    subst standing
    have entered : ({ walk with scope := walk.scope.enter } : Walk).scope = walk.scope.enter := rfl
    obtain ⟨back, inner, runInside⟩ := insideHypothesis foretoldInside entered
    have left : ({ along around inside { walk with scope := walk.scope.enter } with
        scope := walk.scope } : Walk).scope = walk.scope := rfl
    obtain ⟨last, rest, runAfter⟩ := afterHypothesis foretoldAfter left
    rw [Outline.sites, along, back, Scope.exit_enter]
    exact ⟨last, _, (Run.rescope _ runInside).append runAfter⟩

/-! ### What every run keeps -/

namespace Run

variable {sites : List Site} {walk walked : Walk} {attachments : List Attachment}

theorem isMemberRecord_of_leave {walk : Walk} (records : walk.HoldsRecords)
    (around : Surroundings) (site : Site) :
    ∀ entry ∈ (site.records around).foldl leaveRecord walk.pending, entry.2.IsMemberRecord := by
  intro entry member
  rcases mem_foldl_leaveRecord member with left | before
  · exact Shape.isMemberRecord_of_mem_describe left
  · exact records entry before

/-- Every run attaches comments to the right sites. -/
theorem attaches (run : Run around sites walk attachments walked) (records : walk.HoldsRecords) :
    Attaches around sites walk attachments walked := by
  induction run with
  | stay walk => exact .nil records
  | pass undocumented =>
    refine .pass records fun documented => ?_
    exact (doc?_eq_none_iff.mp undocumented).resolve_right (Option.isSome_iff_ne_none.mp documented)
  | @attach site walk doc documented =>
    obtain ⟨unclaimed, preceding⟩ := doc?_eq_some_iff.mp documented
    have left := isMemberRecord_of_leave records around site
    have fits : (walk.attachment around site doc).Fits around := by
      refine ⟨preceding, fun record found => ?_⟩
      exact left (site.offset, record) (mem_of_record? found)
    exact .single fits unclaimed rfl
      (fun entry member => left entry (List.mem_of_mem_filter member)) rfl rfl
  | append _ _ early late =>
    have first := early records
    exact first.append (late first.records)
  | drop offsets _ _ inductionHypothesis => exact (inductionHypothesis records).dropping offsets
  | rescope inner _ inductionHypothesis => exact (inductionHypothesis records).rescope

/-- The comments are attached in the order of the sites. -/
theorem order (run : Run around sites walk attachments walked) :
    (attachments.map Attachment.site).Sublist sites := by
  induction run with
  | stay walk => exact List.Sublist.slnil
  | pass undocumented => exact List.nil_sublist _
  | attach documented => exact List.Sublist.refl _
  | append _ _ early late =>
    rw [List.map_append]
    exact early.append late
  | drop offsets visited _ inductionHypothesis => exact inductionHypothesis
  | rescope inner _ inductionHypothesis => exact inductionHypothesis

end Run

/-- All records that a walk has pending are for sites outside of functions. -/
def PendingOutside (all : List Site) (walk : Walk) : Prop :=
  ∀ entry ∈ walk.pending, ∃ site ∈ all, site.offset = entry.1 ∧ site.scope.depth = 0

/-- The records that the sites documented so far have left are still there, unless the line they
are for has been claimed or has no comment. -/
def Keeps (around : Surroundings) (all : List Site) (documented : List Attachment)
    (walk : Walk) : Prop :=
  ∀ attachment ∈ documented, ∀ entry ∈ attachment.site.records around,
    ∀ site ∈ all, site.offset = entry.1 → (around.comments.preceding? site.line).isSome →
      record? walk.pending entry.1 = some entry.2 ∨ site.line ∈ walk.claimed

/-- A site takes the record that an earlier one has left for it. -/
def Recalls (around : Surroundings) (earlier later : Attachment) : Prop :=
  ∀ entry ∈ earlier.site.records around, entry.1 = later.site.offset →
    later.record = some entry.2

/-- One of several documented sites leaves a record. -/
def LeftBy (around : Surroundings) (documented : List Attachment) (entry : Nat × Evidence) : Prop :=
  ∃ holder ∈ documented, entry ∈ holder.site.records around

theorem LeftBy.mono {documented more : List Attachment} {entry : Nat × Evidence}
    (left : LeftBy around documented entry) (subset : documented ⊆ more) :
    LeftBy around more entry := by
  obtain ⟨holder, member, leaves⟩ := left
  exact ⟨holder, subset member, leaves⟩

/-- Every site takes the record that the sites documented up to it have left for its offset, and
takes none if they have left none. -/
def Recorded (around : Surroundings) (attachments : List Attachment) : Prop :=
  ∀ front attachment back, attachments = front ++ attachment :: back → ∀ record,
    attachment.record = some record ↔
      LeftBy around (front ++ [attachment]) (attachment.site.offset, record)

/-- Where sites start, as far as records need it. -/
structure Placed (sites : List Site) : Prop where
  line : ∀ site ∈ sites, ∀ other ∈ sites, site.offset = other.offset → site.line = other.line
  depth : ∀ site ∈ sites, ∀ other ∈ sites, site.offset = other.offset →
    site.scope.depth = other.scope.depth
  distinct : (propertyOffsets sites).Nodup
  foreseen : Foreseen sites
  agreeing : Agreeing sites

namespace Run

variable {sites all : List Site} {walk walked : Walk} {attachments : List Attachment}

/-- What is pending stays outside of functions, and no site inside one finds a record. -/
theorem pendingOutside (placed : Placed all) (run : Run around sites walk attachments walked)
    (inside : sites ⊆ all) (pending : PendingOutside all walk) :
    PendingOutside all walked ∧
      ∀ attachment ∈ attachments, 0 < attachment.site.scope.depth → attachment.record = none := by
  induction run with
  | stay walk => exact ⟨pending, by simp⟩
  | pass undocumented => exact ⟨pending, by simp⟩
  | @attach site walk doc documented =>
    have outside : ∀ entry ∈ (site.records around).foldl leaveRecord walk.pending,
        ∃ found ∈ all, found.offset = entry.1 ∧ found.scope.depth = 0 := by
      intro entry member
      rcases mem_foldl_leaveRecord member with left | before
      · have here : site ∈ all := inside List.mem_cons_self
        obtain ⟨found, inAll, starts, depth⟩ :=
          (placed.foreseen.shownIn here).exists_site (Site.fst_mem_memberOffsets left)
        exact ⟨found, inAll, starts, depth.trans (Site.depth_of_mem_records left)⟩
      · exact pending entry before
    refine ⟨fun entry member => outside entry (List.mem_of_mem_filter member), ?_⟩
    intro attachment member deep
    rw [List.mem_singleton.mp member] at deep ⊢
    by_contra some
    obtain ⟨record, found⟩ := Option.ne_none_iff_exists'.mp some
    obtain ⟨other, inAll, offset, depth⟩ := outside (_, record) (mem_of_record? found)
    have same := placed.depth other inAll site (inside List.mem_cons_self) offset
    exact Nat.ne_of_gt deep (same.symm.trans depth)
  | append _ _ early late =>
    obtain ⟨pendingMiddle, first⟩ :=
      early (fun _ member => inside (List.mem_append_left _ member)) pending
    obtain ⟨pendingLast, second⟩ :=
      late (fun _ member => inside (List.mem_append_right _ member)) pendingMiddle
    refine ⟨pendingLast, fun attachment member => ?_⟩
    rcases List.mem_append.mp member with before | behind
    · exact first attachment before
    · exact second attachment behind
  | drop offsets _ _ inductionHypothesis =>
    obtain ⟨pendingLast, found⟩ := inductionHypothesis inside pending
    exact ⟨fun entry member => pendingLast entry (List.mem_of_mem_filter member), found⟩
  | rescope inner _ inductionHypothesis => exact inductionHypothesis inside pending

/-- A record that was left is found at its offset, whatever a site leaves on top. -/
theorem record?_leave (placed : Placed all) {site : Site} (here : site ∈ all)
    {earlier : Site} (before : earlier ∈ all) {entry : Nat × Evidence}
    (left : entry ∈ earlier.records around)
    (kept : record? walk.pending entry.1 = some entry.2 ∨ entry ∈ site.records around) :
    record? ((site.records around).foldl leaveRecord walk.pending) entry.1 = some entry.2 := by
  have unique : ∀ other ∈ site.records around, other.1 = entry.1 → other.2 = entry.2 :=
    fun other member same =>
      record_unique placed.distinct placed.foreseen placed.agreeing here before member left same
  by_cases again : ∃ other ∈ site.records around, other.1 = entry.1
  · obtain ⟨other, member, same⟩ := again
    rw [← same, ← unique other member same]
    refine record?_foldl_leaveRecord _ member fun further inRecords equal => ?_
    exact (unique further inRecords (equal.trans same)).trans (unique other member same).symm
  · have none : ∀ other ∈ site.records around, other.1 ≠ entry.1 := fun other member same =>
      again ⟨other, member, same⟩
    rw [record?_foldl_leaveRecord_of_none _ none]
    exact kept.resolve_right fun member => none entry member rfl

/-- Documented sites keep what they have left, and every site recalls what was left for it. -/
theorem keeps (placed : Placed all) (run : Run around sites walk attachments walked)
    (inside : sites ⊆ all) (records : walk.HoldsRecords) {documented : List Attachment}
    (before : ∀ attachment ∈ documented, attachment.site ∈ all)
    (kept : Keeps around all documented walk) :
    Keeps around all (documented ++ attachments) walked ∧
      (∀ earlier ∈ documented, ∀ later ∈ attachments, Recalls around earlier later) ∧
      attachments.Pairwise (Recalls around) := by
  induction run generalizing documented with
  | stay walk => exact ⟨by simpa using kept, by simp, .nil⟩
  | pass undocumented => exact ⟨by simpa using kept, by simp, .nil⟩
  | @attach site walk doc isDocumented =>
    obtain ⟨unclaimed, preceding⟩ := doc?_eq_some_iff.mp isDocumented
    have here : site ∈ all := inside List.mem_cons_self
    refine ⟨?_, ?_, List.pairwise_singleton _ _⟩
    · intro attachment member entry left found inAll starts commented
      by_cases own : entry.1 = site.offset
      · right
        rw [placed.line found inAll site here (starts.trans own)]
        exact List.mem_cons_self
      · have dropped : record? (walk.attach around site doc).pending entry.1 =
            record? ((site.records around).foldl leaveRecord walk.pending) entry.1 :=
          record?_dropRecord own
        rw [dropped]
        rcases List.mem_append.mp member with earlier | isNew
        · rcases kept attachment earlier entry left found inAll starts commented with still | done
          · exact Or.inl (record?_leave placed here (before attachment earlier) left (Or.inl still))
          · exact Or.inr (List.mem_cons_of_mem _ done)
        · rw [List.mem_singleton.mp isNew] at left
          exact Or.inl (record?_leave placed here here left (Or.inr left))
    · intro earlier inDocumented later isLater entry left starts
      rw [List.mem_singleton.mp isLater] at starts ⊢
      have still := kept earlier inDocumented entry left site here starts.symm
        (Option.isSome_of_mem preceding)
      have found := record?_leave placed here (before earlier inDocumented) left
        (Or.inl (still.resolve_right unclaimed))
      rw [← found, starts]
      rfl
  | @append first second walk middle walked attachments rest run next early late =>
    have insideFirst : first ⊆ all := fun _ member => inside (List.mem_append_left _ member)
    have insideSecond : second ⊆ all := fun _ member => inside (List.mem_append_right _ member)
    obtain ⟨keptMiddle, recalledFirst, pairFirst⟩ := early insideFirst records before kept
    have beforeSecond : ∀ attachment ∈ documented ++ attachments, attachment.site ∈ all := by
      intro attachment member
      rcases List.mem_append.mp member with earlier | inFirst
      · exact before attachment earlier
      · exact insideFirst (run.order.subset (List.mem_map_of_mem inFirst))
    obtain ⟨keptLast, recalledSecond, pairSecond⟩ :=
      late insideSecond (run.attaches records).records beforeSecond keptMiddle
    refine ⟨?_, ?_, ?_⟩
    · rwa [List.append_assoc] at keptLast
    · intro earlier inDocumented later member
      rcases List.mem_append.mp member with inFirst | inSecond
      · exact recalledFirst earlier inDocumented later inFirst
      · exact recalledSecond earlier (List.mem_append_left _ inDocumented) later inSecond
    · refine List.pairwise_append.mpr ⟨pairFirst, pairSecond, ?_⟩
      intro earlier inFirst later inSecond
      exact recalledSecond earlier (List.mem_append_right _ inFirst) later inSecond
  | drop offsets visited run inductionHypothesis =>
    obtain ⟨keptLast, recalled, pair⟩ := inductionHypothesis inside records before kept
    refine ⟨?_, recalled, pair⟩
    intro attachment member entry left found inAll starts commented
    by_cases isDropped : entry.1 ∈ offsets
    · -- The site that the record was left for has been visited, so its line is claimed.
      obtain ⟨site, inSites, offset⟩ := visited entry.1 isDropped
      have sameLine := placed.line found inAll site (inside inSites) (starts.trans offset.symm)
      rw [sameLine] at commented ⊢
      exact Or.inr ((run.attaches records).complete site inSites commented)
    · rw [record?_dropRecords isDropped]
      exact keptLast attachment member entry left found inAll starts commented
  | rescope inner _ inductionHypothesis => exact inductionHypothesis inside records before kept

/-- A site that leaves a record for itself takes it. -/
theorem recallsOwn (placed : Placed all) (run : Run around sites walk attachments walked)
    (inside : sites ⊆ all) : ∀ attachment ∈ attachments, Recalls around attachment attachment := by
  induction run with
  | stay walk => exact List.forall_mem_nil _
  | pass undocumented => exact List.forall_mem_nil _
  | @attach site walk doc documented =>
    have here : site ∈ all := inside List.mem_cons_self
    refine List.forall_mem_singleton.mpr fun entry left starts => ?_
    have found : record? ((site.records around).foldl leaveRecord walk.pending) entry.1 =
        some entry.2 := record?_leave placed here here left (Or.inr left)
    rwa [starts] at found
  | append _ _ early late =>
    exact List.forall_mem_append.mpr
      ⟨early fun _ member => inside (List.mem_append_left _ member),
        late fun _ member => inside (List.mem_append_right _ member)⟩
  | drop offsets _ _ inductionHypothesis => exact inductionHypothesis inside
  | rescope inner _ inductionHypothesis => exact inductionHypothesis inside

/-- Whatever is pending was left by a documented site, and so was whatever a site takes. -/
theorem left (run : Run around sites walk attachments walked) {documented : List Attachment}
    (before : ∀ entry ∈ walk.pending, LeftBy around documented entry) :
    (∀ entry ∈ walked.pending, LeftBy around (documented ++ attachments) entry) ∧
      ∀ front attachment back, attachments = front ++ attachment :: back → ∀ record,
        attachment.record = some record →
          LeftBy around (documented ++ (front ++ [attachment]))
            (attachment.site.offset, record) := by
  induction run generalizing documented with
  | stay walk => exact ⟨by simpa using before, by simp⟩
  | pass undocumented => exact ⟨by simpa using before, by simp⟩
  | @attach site walk doc isDocumented =>
    have known : ∀ entry ∈ (site.records around).foldl leaveRecord walk.pending,
        LeftBy around (documented ++ [walk.attachment around site doc]) entry := by
      intro entry member
      rcases mem_foldl_leaveRecord member with own | earlier
      · exact ⟨_, List.mem_append_right _ (List.mem_singleton_self _), own⟩
      · exact (before entry earlier).mono fun _ => List.mem_append_left _
    refine ⟨fun entry member => known entry (List.mem_of_mem_filter member), ?_⟩
    intro front attachment back whole record taken
    rcases List.append_eq_singleton_iff.mp whole.symm with ⟨rfl, here⟩ | ⟨-, none⟩
    · obtain ⟨rfl, -⟩ := List.cons.inj here
      exact known _ (mem_of_record? taken)
    · cases none
  | @append _ _ _ _ _ attachments rest _ _ early late =>
    obtain ⟨middle, first⟩ := early before
    obtain ⟨last, second⟩ := late middle
    rw [List.append_assoc] at last
    refine ⟨last, fun front attachment back whole record taken => ?_⟩
    rcases List.append_eq_append_iff.mp whole with ⟨more, rfl, inRest⟩ | ⟨more, inFirst, whole⟩
    · have found := second more attachment back inRest record taken
      rwa [List.append_assoc, ← List.append_assoc attachments] at found
    · cases more with
      | nil =>
        rw [List.append_nil] at inFirst
        have found := second [] attachment back whole.symm record taken
        rwa [inFirst, List.append_assoc] at found
      | cons next more =>
        obtain ⟨rfl, -⟩ := List.cons.inj whole
        exact first front attachment more inFirst record taken
  | drop offsets _ _ inductionHypothesis =>
    obtain ⟨last, taken⟩ := inductionHypothesis before
    exact ⟨fun entry member => last entry (List.mem_of_mem_filter member), taken⟩
  | rescope inner _ inductionHypothesis => exact inductionHypothesis before

/-- Along all sites, a site takes exactly the record that was left for it. -/
theorem recorded (placed : Placed all) {final : Walk} (run : Run around all {} attachments final) :
    Recorded around attachments := by
  have none : HoldsRecords {} := fun _ member => nomatch member
  intro front attachment back whole record
  constructor
  · intro taken
    obtain ⟨-, known⟩ := @left _ _ _ _ _ run [] fun _ member => nomatch member
    exact known front attachment back whole record taken
  · rintro ⟨holder, member, left⟩
    obtain ⟨-, -, pair⟩ := run.keeps placed (List.Subset.refl all) none
      (List.forall_mem_nil _) (List.forall_mem_nil _)
    rw [whole, List.pairwise_append] at pair
    rcases List.mem_append.mp member with earlier | here
    · exact pair.2.2 holder earlier attachment List.mem_cons_self _ left rfl
    · obtain rfl := List.mem_singleton.mp here
      have inAttachments : holder ∈ attachments :=
        whole ▸ List.mem_append_right _ List.mem_cons_self
      exact run.recallsOwn placed (List.Subset.refl all) holder inAttachments _ left rfl

/-- Along all sites, every property recalls what any site has left for it. -/
theorem recalls (placed : Placed all) {final : Walk}
    (run : Run around all {} attachments final) {earlier later : Attachment}
    (documented : earlier ∈ attachments) (member : later ∈ attachments)
    (property : later.site.shape.isProperty = true) : Recalls around earlier later := by
  have none : HoldsRecords {} := fun _ member => nomatch member
  obtain ⟨-, -, pair⟩ := run.keeps placed (List.Subset.refl all) none
    (List.forall_mem_nil _) (List.forall_mem_nil _)
  obtain ⟨alone, apart⟩ := placed.foreseen.pairwise placed.distinct
  have order := run.order
  -- Of two documented sites the later one recalls what the earlier one has left, and the
  -- earlier one is no property that the later one tells of.
  let either (first second : Attachment) : Prop :=
    (second.site.shape.isProperty = true → Recalls around first second) ∧
      (first.site.shape.isProperty = true → Recalls around second first)
  have untold {site : Site} {attachment : Attachment}
      (away : site.offset ∉ attachment.site.memberOffsets) (entry : Nat × Evidence)
      (left : entry ∈ attachment.site.records around) : entry.1 ≠ site.offset := by
    intro starts
    exact away (starts ▸ Site.fst_mem_memberOffsets left)
  have both : attachments.Pairwise either := by
    have apartAttached := List.pairwise_map.mp (apart.sublist order)
    refine (pair.and apartAttached).imp ?_
    rintro first second ⟨recalled, away⟩
    refine ⟨fun _ => recalled, fun isProperty entry left starts => ?_⟩
    exact absurd starts (untold (away isProperty) entry left)
  have symmetric : Std.Symm either := ⟨fun first second holds => ⟨holds.2, holds.1⟩⟩
  have reflexive : ∀ attachment ∈ attachments, either attachment attachment := by
    intro attachment inAttachments
    have inAll := order.subset (List.mem_map_of_mem inAttachments)
    have self : attachment.site.shape.isProperty = true → Recalls around attachment attachment :=
      fun isProperty entry left starts =>
        absurd starts (untold (alone _ inAll isProperty) entry left)
    exact ⟨self, self⟩
  exact (List.Pairwise.forall_of_forall reflexive both documented member).1 property

end Run

end Walk

end DocEntities
