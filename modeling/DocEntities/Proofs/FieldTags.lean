/-
This file says which entities can be read from the text they are written into. A remark stands
beside the fields of its entity, under the name of its tag, so all depends on the tags that have
no field of their own and still the name of one. There are eight of them. One whose field is
written gives the entity a key twice; one whose field is left out is read as that field.

The remarks of an entity come from its comment alone: neither the line nor the shape of the code
makes any, nor does the record of a class. So the entities that are read back as they were can be
told from the tags of the comments, up to the size of the line.
-/

import DocEntities.Proofs.CommentFormat
import DocEntities.Proofs.Json.RoundTrip
import DocEntities.Proofs.StoredKey

namespace DocEntities

/-! ### The line of an entity -/

theorem Script.Spot.line_advance_le (count : Nat) (spot : Spot) :
    (spot.advance count).position.line ≤ spot.position.line + spot.rest.length := by
  induction count generalizing spot with
  | zero => exact Nat.le_add_right _ _
  | succ count inductionHypothesis =>
    cases rest : spot.rest with
    | nil =>
      rw [advance_of_nil rest]
      exact Nat.le_add_right _ _
    | cons c more =>
      rw [advance, rest, List.length_cons]
      refine (inductionHypothesis _).trans ?_
      show (if endsLine c more then spot.position.line + 1 else spot.position.line) +
        more.length ≤ _
      split <;> omega

/-- No more lines start in a source than it has characters, besides the first. -/
theorem Script.Position.Of.line_le {source : List Char} {position : Position}
    (isOf : position.Of source) : position.line ≤ source.length + 1 := by
  have bound := Spot.line_advance_le position.offset (Spot.first source)
  rw [← isOf] at bound
  exact bound.trans_eq (Nat.add_comm 1 source.length)

theorem Script.length_dropByteOrderMark_le (source : List Char) :
    (dropByteOrderMark source).length ≤ source.length := by
  unfold dropByteOrderMark
  split
  · exact Nat.le_succ _
  · exact Nat.le_refl _

theorem Script.line_le_of_mem_candidates {code : String} {elements : Bool} {parsed : Parsed}
    (read : parse? code elements = some parsed) {site : Site}
    (candidate : site ∈ parsed.program.candidates) : site.line ≤ code.toList.length + 1 := by
  obtain ⟨high, fit⟩ := exists_fit_candidates read
  have placed := fit.placed site.mark (List.mem_map_of_mem candidate)
  exact placed.line_le.trans (Nat.succ_le_succ (length_dropByteOrderMark_le _))

/-! ### The keys of remarks -/

namespace Remarks

/-- The names of the tags that remarks are kept of. -/
def keys (remarks : Remarks) : List String :=
  remarks.entries.map Prod.fst

theorem mem_keys_putSorted {key other : String} {value : Remark}
    {entries : List (String × Remark)} :
    other ∈ (putSorted key value entries).map Prod.fst ↔
      other = key ∨ other ∈ entries.map Prod.fst := by
  induction entries with
  | nil => simp [putSorted]
  | cons head rest inductionHypothesis =>
    rw [putSorted]
    by_cases before : key < head.1
    · rw [if_pos before, List.map_cons, List.mem_cons]
    · rw [if_neg before]
      by_cases same : key = head.1
      · rw [if_pos same, List.map_cons, List.mem_cons, List.map_cons, List.mem_cons, ← same,
          ← or_assoc, or_self]
      · rw [if_neg same, List.map_cons, List.mem_cons, inductionHypothesis, List.map_cons,
          List.mem_cons, or_left_comm]

theorem mem_keys_insert {remarks : Remarks} {key other : String} {value : Remark} :
    other ∈ (remarks.insert key value).keys ↔ other = key ∨ other ∈ remarks.keys :=
  mem_keys_putSorted

theorem nodup_keys (remarks : Remarks) : remarks.keys.Nodup := by
  refine List.Pairwise.map Prod.fst (fun first second before same => ?_) remarks.ascending
  exact Std.lt_irrefl (same ▸ before)

end Remarks

/-! ### The tags of a comment -/

namespace Comment

/-- What the tags of a comment are read from: all of it, if it opens with an at sign, and else
what follows the first at sign that opens a line. -/
def tagBlock (text : String) : List Char :=
  let body := Text.trimmed text.toList
  if body.head? = some '@' then body
  else Text.joinWith ['\n', '@'] (Text.splitPair '\n' '@' body).tail

/-- The tags of a comment whose marks have been taken out. -/
def tags (text : String) : List Tag :=
  (Text.splitPair '\n' '@' (tagBlock text)).filterMap fun piece =>
    Tag.read? (String.ofList piece)

/-- The text of a comment that belongs to no tag: all that stands in front of the first at sign
at the start of a line. -/
def freeText? (text : String) : Option (List Char) :=
  let body := Text.trimmed text.toList
  if body.head? = some '@' then none
  else some (Text.trimmed (Text.beforePair '\n' '@' body))

theorem mem_of_mem_tagBlock {text : String} {c : Char} (member : c ∈ tagBlock text) :
    c ∈ text.toList := by
  unfold tagBlock at member
  simp only at member
  split at member
  · exact Text.mem_of_mem_trimmed member
  · exact Text.mem_of_mem_trimmed ((Text.tail_splitPair_suffix _ _ _).subset member)

theorem mem_of_mem_freeText {text : String} {free : List Char} (isFree : freeText? text = some free)
    {c : Char} (member : c ∈ free) : c ∈ text.toList := by
  unfold freeText? at isFree
  simp only at isFree
  split at isFree
  · cases isFree
  · obtain rfl := Option.some.inj isFree
    exact Text.mem_of_mem_trimmed
      ((Text.beforePair_prefix _ _ _).subset (Text.mem_of_mem_trimmed member))

/-- The description of a tag stands in the comment. -/
theorem mem_of_mem_tagDescription {comment text : String} {tag : Tag} (isTag : tag ∈ tags comment)
    (described : tag.description = some text) : ∀ c ∈ text.toList, c ∈ comment.toList := by
  intro c member
  obtain ⟨piece, cut, read⟩ := List.mem_filterMap.mp isTag
  obtain ⟨rest, behind, -, isText, -⟩ := Tag.exists_of_read? read
  rw [described] at isText
  rw [Text.eq_ofList_of_nonEmpty? isText.symm, String.toList_ofList] at member
  have inSegment := (Tag.dropAtSign_suffix _).subset
    ((List.dropWhile_suffix _).subset (behind.subset (Text.mem_of_mem_trimmed member)))
  rw [String.toList_ofList] at inSegment
  exact mem_of_mem_tagBlock (Text.mem_of_mem_splitPair cut (Text.mem_of_mem_trimmed inSegment))

end Comment

namespace Evidence

theorem remarks_merge (earlier later : Evidence) :
    (earlier.merge later).remarks = earlier.remarks.merge later.remarks :=
  rfl

/-- A tag without a role leaves a remark under its name, and no other tag leaves any. -/
theorem mem_keys_applyTag {evidence : Evidence} {tag : Tag} {key : String} :
    key ∈ (evidence.applyTag tag).remarks.keys ↔
      (tag.name = key ∧ TagRole.ofName key = .remark) ∨ key ∈ evidence.remarks.keys := by
  have other (role : TagRole.ofName tag.name ≠ .remark) :
      ¬(tag.name = key ∧ TagRole.ofName key = .remark) := by
    rintro ⟨rfl, isRemark⟩
    exact role isRemark
  unfold applyTag
  split
  case h_13 role =>
    rw [Remarks.mem_keys_insert]
    refine or_congr_left ⟨?_, fun named => named.1.symm⟩
    rintro rfl
    exact ⟨rfl, role⟩
  case h_3 role =>
    rw [or_iff_right (other (by rw [role]; nofun))]
    split <;> rfl
  all_goals
    rename_i role
    exact (or_iff_right (other (by rw [role]; nofun))).symm

theorem mem_keys_foldl_applyTag {tags : List Tag} {evidence : Evidence} {key : String} :
    key ∈ (tags.foldl applyTag evidence).remarks.keys ↔
      (∃ tag ∈ tags, tag.name = key ∧ TagRole.ofName key = .remark) ∨
        key ∈ evidence.remarks.keys := by
  induction tags generalizing evidence with
  | nil => simp
  | cons tag rest inductionHypothesis =>
    rw [List.foldl_cons, inductionHypothesis, mem_keys_applyTag, List.exists_mem_cons_iff, or_assoc,
      or_left_comm]

/-- A comment is its free text, if it has any, under its tags. -/
theorem ofComment_eq (text : String) :
    ofComment text =
      ((Comment.freeText? text).elim empty ofDescription).merge (ofTags (Comment.tags text)) := by
  unfold ofComment Comment.freeText? Comment.tags Comment.tagBlock
  simp only
  generalize Text.trimmed text.toList = body
  split
  · rw [if_pos List.head?_cons, if_pos List.head?_cons]
    exact (empty_merge _).symm
  · rename_i untagged
    have opens : ¬body.head? = some '@' := fun starts =>
      (List.head?_eq_some_iff.mp starts).elim untagged
    rw [if_neg opens, if_neg opens, Text.beforePair]
    split
    · rename_i nothing
      rw [nothing]
      exact (merge_empty _).symm
    · rename_i first pieces cut
      rw [cut, List.tail_cons]
      by_cases empty : (Text.joinWith ['\n', '@'] pieces).isEmpty = true
      · rw [if_pos empty, List.isEmpty_iff.mp empty]
        exact (merge_empty _).symm
      · rw [if_neg empty]
        rfl

/-- A comment is a description and a summary, if it has them, under its tags. -/
theorem ofComment_eq_merge (text : String) :
    ∃ description summary, ofComment text =
      ({ description := description, summary := summary } : Evidence).merge
        (ofTags (Comment.tags text)) := by
  rw [ofComment_eq]
  cases Comment.freeText? text with
  | none => exact ⟨none, none, rfl⟩
  | some free => exact ⟨_, _, rfl⟩

/-- The description of a comment makes no remark. -/
theorem remarks_ofComment (text : String) :
    (ofComment text).remarks = (ofTags (Comment.tags text)).remarks := by
  obtain ⟨description, summary, merged⟩ := ofComment_eq_merge text
  rw [merged, remarks_merge]
  exact Remarks.empty_merge _

theorem mem_keys_ofComment {text key : String} :
    key ∈ (ofComment text).remarks.keys ↔
      ∃ tag ∈ Comment.tags text, tag.name = key ∧ TagRole.ofName key = .remark := by
  have nothing : key ∉ (empty : Evidence).remarks.keys := List.not_mem_nil
  rw [remarks_ofComment, ofTags, mem_keys_foldl_applyTag, or_iff_left nothing]

/-! ### Code makes no remarks -/

theorem remarks_ofLine (line : String) (topLevel : Bool) :
    (ofLine line topLevel).remarks = .empty := by
  unfold ofLine
  split
  · rfl
  · rename_i form _
    cases form <;> rfl

end Evidence

theorem Value.remarks_describe (value : Value) (topLevel : Bool) (utilityNamespaces : List String)
    (holder : Evidence) :
    (value.describe topLevel utilityNamespaces holder).evidence.remarks = holder.remarks := by
  cases value with
  | extension base members =>
    simp only [describe]
    split <;> rfl
  | made constructor =>
    simp only [describe]
    split
    · rfl
    · split <;> rfl
  | _ => rfl

theorem Shape.remarks_describe (shape : Shape) (scope : Scope) (utilityNamespaces : List String) :
    (shape.describe scope utilityNamespaces).evidence.remarks = .empty := by
  cases shape with
  | member object name value =>
    refine (value.remarks_describe _ _ _).trans ?_
    unfold memberEvidence
    split <;> rfl
  | binding name value => exact value.remarks_describe _ _ _
  | property name value =>
    refine (value.remarks_describe _ _ _).trans ?_
    unfold propertyEvidence
    split
    · rfl
    · simp only
      split <;> rfl
  | classMember name isStatic kind value =>
    cases name with
    | none => rfl
    | some name => exact value.remarks_describe _ _ _
  | other => rfl

namespace Attachment

variable {around : Surroundings} {attachment : Attachment} {entity : Entity}

/-- The remarks on a site are those of its comment. -/
theorem remarks_evidence (fits : attachment.Fits around) :
    (attachment.evidence around).remarks = (Evidence.ofComment attachment.doc.text).remarks := by
  have record : (attachment.record.getD .empty).remarks = .empty := by
    cases left : attachment.record with
    | none => rfl
    | some evidence =>
      obtain ⟨owner, name, rfl⟩ := fits.record evidence left
      rfl
  have code : (attachment.codeEvidence around).remarks = .empty := by
    rw [codeEvidence, Evidence.remarks_merge, Evidence.remarks_merge, Evidence.remarks_ofLine,
      Shape.remarks_describe]
    rfl
  rw [evidence_eq, Evidence.remarks_merge, Evidence.remarks_merge, code, record,
    Remarks.empty_merge, Remarks.empty_merge]

theorem remarks_of_finding (fits : attachment.Fits around)
    (made : attachment.finding around = .entity entity) :
    entity.remarks = (Evidence.ofComment attachment.doc.text).remarks := by
  obtain ⟨name, -, rfl⟩ := Option.map_eq_some_iff.mp (toEntity?_of_finding made)
  exact remarks_evidence fits

end Attachment

/-! ### Tags with the name of a field -/

/-- The tags that have the name of a field and no role. -/
def fieldTags : List String :=
  ["id", "kind", "container", "isInstanceMember", "inheritsFrom", "params", "types", "source"]

theorem mem_fieldTags_iff {name : String} :
    name ∈ fieldTags ↔ name ∈ Entity.fieldNames ∧ TagRole.ofName name = .remark := by
  have found : fieldTags =
      Entity.fieldNames.filter fun name => decide (TagRole.ofName name = .remark) := by decide
  rw [found, List.mem_filter, decide_eq_true_iff]

namespace Entity

theorem keys_fields_sublist (entity : Entity) :
    (entity.fields.map Prod.fst).Sublist fieldNames := by
  -- Which fields are written does not depend on the line.
  have enters := enters_fields Json.Layout.spaced_compact { entity with source := {} }
    (Nat.pow_pos Nat.zero_lt_two)
  have same : ({ entity with source := {} } : Entity).fields.map Prod.fst =
      entity.fields.map Prod.fst := by
    simp [fields]
  exact same ▸ enters.keys

/-- The keys of an entity differ if no remark has the name of a field that is written. -/
theorem nodup_keys_iff {entity : Entity} :
    (entity.members.map Prod.fst).Nodup ↔
      ∀ key ∈ entity.remarks.keys, key ∉ entity.fields.map Prod.fst := by
  have distinct : (entity.fields.map Prod.fst).Nodup :=
    entity.keys_fields_sublist.nodup (by decide)
  have keys : entity.members.map Prod.fst =
      entity.fields.map Prod.fst ++ entity.remarks.keys := by
    rw [members_eq, List.map_append, List.map_map]
    rfl
  rw [keys, List.nodup_append]
  constructor
  · rintro ⟨-, -, apart⟩ key remark field
    exact apart key field key remark rfl
  · intro apart
    refine ⟨distinct, entity.remarks.nodup_keys, ?_⟩
    rintro key field _ remark rfl
    exact apart key remark field

/-- The entities that are read back, at whatever depth they are written. -/
theorem ofText_write_iff {entity : Entity} {layout : Json.Layout} (spaced : layout.Spaced)
    (depth : Nat) :
    Entity.ofText (String.ofList (Json.write layout depth entity.toJson)) = .ok entity ↔
      entity.Lasting := by
  refine ⟨lasting_of_ofText, fun lasting => ?_⟩
  have read := takesBack_entity spaced lasting depth [] [] .nil nofun
  rw [List.nil_append, List.append_nil] at read
  rw [Entity.ofText, Json.Reader.run, String.toList_ofList, read]
  rfl

section Tagged

variable {entity : Entity} {text : String}

theorem mem_keys_iff (remarks : entity.remarks = (Evidence.ofComment text).remarks)
    {key : String} :
    key ∈ entity.remarks.keys ↔
      ∃ tag ∈ Comment.tags text, tag.name = key ∧ TagRole.ofName key = .remark := by
  rw [remarks, Evidence.mem_keys_ofComment]

theorem nodup_keys_iff_tags (remarks : entity.remarks = (Evidence.ofComment text).remarks) :
    (entity.members.map Prod.fst).Nodup ↔
      ∀ tag ∈ Comment.tags text, tag.name ∈ fieldTags → tag.name ∉ entity.fields.map Prod.fst := by
  rw [nodup_keys_iff]
  constructor
  · intro apart tag member isField
    exact apart tag.name ((mem_keys_iff remarks).mpr
      ⟨tag, member, rfl, (mem_fieldTags_iff.mp isField).2⟩)
  · intro apart key remark written
    obtain ⟨tag, member, rfl, role⟩ := (mem_keys_iff remarks).mp remark
    have isField := entity.keys_fields_sublist.subset written
    exact apart tag member (mem_fieldTags_iff.mpr ⟨isField, role⟩) written

theorem lasting_iff_tags (remarks : entity.remarks = (Evidence.ofComment text).remarks) :
    entity.Lasting ↔
      (∀ tag ∈ Comment.tags text, tag.name ∉ fieldTags) ∧ entity.source.line < Nat.pow 2 64 := by
  constructor
  · intro lasting
    refine ⟨fun tag member isField => ?_, lasting.bounded⟩
    obtain ⟨isName, role⟩ := mem_fieldTags_iff.mp isField
    obtain ⟨entry, kept, key⟩ := List.mem_map.mp
      ((mem_keys_iff remarks).mpr ⟨tag, member, rfl, role⟩)
    exact lasting.foreign entry kept (key ▸ isName)
  · rintro ⟨apart, bounded⟩
    refine ⟨fun entry kept isName => ?_, bounded⟩
    obtain ⟨tag, member, named, role⟩ := (mem_keys_iff remarks).mp (List.mem_map_of_mem kept)
    exact apart tag member (named ▸ mem_fieldTags_iff.mpr ⟨isName, role⟩)

end Tagged

end Entity

/-! ### The table of a source -/

theorem parse?_of_parseSource {code name : String} {parsed : Script.Parsed}
    (read : parseSource code name = .ok parsed) :
    Script.parse? code (allowsElements name) = some parsed := by
  unfold parseSource at read
  split at read
  · cases read
    assumption
  · cases read

/-- The entities of a source that are written without ambiguity are told by the tags of the
comments in front of them. The keys of an entity differ if and only if no tag has the name of a
field that is written and no role; it is read back as it was if and only if no tag has the name
of a field and no role, and its line is a number of 64 bits, as it is in any source of fewer
characters. -/
theorem written_unambiguously_iff {code : String} {options : Options} {parsed : Script.Parsed}
    (read : parseSource code (options.sourceName.getD anonymousSource) = .ok parsed) :
    ∃ table, documentSource code options = .ok table ∧
      ∀ entity ∈ table.entries, ∃ doc,
        (CommentIndex.collect parsed.comments).preceding? entity.source.line = some doc ∧
        ((entity.members.map Prod.fst).Nodup ↔
          ∀ tag ∈ Comment.tags doc.text, tag.name ∈ fieldTags →
            tag.name ∉ entity.fields.map Prod.fst) ∧
        (∀ layout : Json.Layout, layout.Spaced → ∀ depth,
          Entity.ofText (String.ofList (Json.write layout depth entity.toJson)) = .ok entity ↔
            (∀ tag ∈ Comment.tags doc.text, tag.name ∉ fieldTags) ∧
              entity.source.line < Nat.pow 2 64) ∧
        entity.source.line ≤ code.toList.length + 1 := by
  refine ⟨_, documentSource_of_parse read, fun entity member => ?_⟩
  obtain ⟨before, inTable, corrected, -⟩ := Table.exists_before_resolve member
  obtain ⟨attachment, candidate, fits, made⟩ :=
    exists_attachment_of_mem_findings (Table.mem_of_mem_ofList inTable)
  have remarks : entity.remarks = (Evidence.ofComment attachment.doc.text).remarks := by
    rw [← corrected]
    show before.remarks = _
    exact Attachment.remarks_of_finding fits made
  have line : entity.source.line = attachment.line := by
    have source := Attachment.source_of_entity? fits (congrArg Finding.entity? made)
    rw [← corrected, Entity.withKind_source, source]
    rfl
  refine ⟨attachment.doc, line ▸ fits.doc, Entity.nodup_keys_iff_tags remarks, ?_, ?_⟩
  · intro layout spaced depth
    exact (Entity.ofText_write_iff spaced depth).trans (Entity.lasting_iff_tags remarks)
  · rw [line]
    exact Script.line_le_of_mem_candidates (parse?_of_parseSource read) candidate

/-- Two names with a tag each, the first tag with the name of a field. -/
def taggedSource : String :=
  "/**@id x*/\na\n/**@see x*/\nb"

/-- What the source is read as. -/
@[match_pattern]
def taggedNames : Script.Parsed where
  program := ⟨[.statement (.expression ⟨11, 2⟩ (.name ⟨11, 2⟩ "a")),
    .statement (.expression ⟨25, 4⟩ (.name ⟨25, 4⟩ "b"))]⟩
  comments := [⟨true, ⟨0, 1⟩, 1, "*@id x"⟩, ⟨true, ⟨13, 3⟩, 3, "*@see x"⟩]
  lines := ["/**@id x*/", "a", "/**@see x*/", "b"]

/-- The entity of a name with a tag. -/
def taggedName (name : String) (line : Nat) (tag : String) : Entity :=
  { id := name, name := name, source := { line }, remarks := .ofList [(tag, .text "x")] }

/-- Whether a source is read as those names. -/
def isTaggedNames : Script.Parsed → Bool
  | taggedNames => true
  | _ => false

theorem parseSource_taggedSource :
    parseSource taggedSource anonymousSource = .ok taggedNames := by
  have computed : (Script.parse? taggedSource false).map isTaggedNames = some true := by
    decide +kernel
  obtain ⟨parsed, read, matched⟩ := Option.map_eq_some_iff.mp computed
  have noElements : allowsElements anonymousSource = false := by decide
  rw [parseSource, noElements, read]
  unfold isTaggedNames at matched
  split at matched
  · rfl
  · cases matched

theorem collect_taggedNames :
    CommentIndex.collect taggedNames.comments =
      ⟨[(2, ⟨"@id x", 1, 1⟩), (4, ⟨"@see x", 3, 3⟩)]⟩ := by
  rw [CommentIndex.collect_eq_insertionSort]
  decide

theorem findingsOf_taggedNames :
    findingsOf taggedNames {} =
      [.entity (taggedName "a" 2 "id"), .entity (taggedName "b" 4 "see")] := by
  rw [findingsOf, Surroundings.ofParsed, collect_taggedNames]
  decide

set_option maxRecDepth 4000 in
theorem documentSource_taggedSource :
    (documentSource taggedSource {}).map Table.entries =
      .ok [taggedName "a" 2 "id", taggedName "b" 4 "see"] := by
  have resolved : ((Table.ofList [taggedName "a" 2 "id", taggedName "b" 4 "see"]).resolve
      .singleSweep).table.entries = [taggedName "a" 2 "id", taggedName "b" 4 "see"] := by decide
  rw [@documentSource_of_parse taggedSource {} _ parseSource_taggedSource, findingsOf_taggedNames]
  exact congrArg Except.ok resolved

theorem written_unambiguously_taggedSource :
    parseSource taggedSource anonymousSource = .ok taggedNames ∧
      ∃ table, documentSource taggedSource {} = .ok table ∧
        taggedName "b" 4 "see" ∈ table.entries ∧
        ((taggedName "b" 4 "see").members.map Prod.fst).Nodup ∧
        Entity.ofText ((taggedName "b" 4 "see").toJson.render .pretty) =
          .ok (taggedName "b" 4 "see") := by
  obtain ⟨table, documented, each⟩ :=
    @written_unambiguously_iff taggedSource {} _ parseSource_taggedSource
  have entries := documentSource_taggedSource
  rw [documented] at entries
  have member : taggedName "b" 4 "see" ∈ table.entries := by
    rw [Except.ok.inj entries]
    decide
  obtain ⟨doc, isDoc, keys, back, -⟩ := each _ member
  rw [collect_taggedNames] at isDoc
  cases isDoc
  have harmless : ∀ tag ∈ Comment.tags "@see x", tag.name ∉ fieldTags := by decide
  exact ⟨parseSource_taggedSource, table, documented, member,
    keys.mpr fun tag isTag isField => absurd isField (harmless tag isTag),
    (back .pretty Json.Layout.spaced_pretty 0).mpr ⟨harmless, by decide⟩⟩

/-- A tag that has the name of a field gives its entity a key twice, and what is written is not
read. -/
theorem ambiguous_in_taggedSource :
    ∃ table, documentSource taggedSource {} = .ok table ∧
      ∃ entity ∈ table.entries, ¬(entity.members.map Prod.fst).Nodup ∧
        Entity.ofText (entity.toJson.render .compact) = .error .data := by
  have entries := documentSource_taggedSource
  rw [@documentSource_of_parse taggedSource {} _ parseSource_taggedSource] at entries
  refine ⟨_, documentSource_of_parse parseSource_taggedSource, taggedName "a" 2 "id", ?_, ?_, ?_⟩
  · rw [Except.ok.inj entries]
    exact List.mem_cons_self
  · decide
  · decide +kernel

end DocEntities
