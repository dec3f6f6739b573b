/-
This file follows the namepath of an entity to the finished table. It is put together once, from
the container, the name, the instance flag and the kind that the evidence gives. From there on
nothing touches the first three, but kinds are still corrected, so that in the finished table the
namepath speaks of the kind that the entity had before.

That is enough to read a namepath. The rules promote to namespaces and classes only, and neither
is marked in a namepath; an entity that ends as an event was one from the start, and its namepath
carries the mark.
-/

import DocEntities.Proofs.ClosedForm
import DocEntities.Proofs.Containers
import DocEntities.Proofs.History

namespace DocEntities

/-! ### From evidence to a table -/

/-- The namepath of an entity is that of its parts, with the kind it was entered with. -/
structure Entity.EnteredAs (entity : Entity) (kind : Option Kind) : Prop where
  container : entity.container ≠ some ""
  id : entity.id = Namepath.ofParts entity.container entity.name entity.isInstanceMember kind

theorem Evidence.enteredAs_of_toEntity? {evidence : Evidence} {entity : Entity}
    (made : evidence.toEntity? = some entity) : entity.EnteredAs entity.kind := by
  obtain ⟨name, -, rfl⟩ := Option.map_eq_some_iff.mp made
  refine ⟨fun empty => ?_, (Namepath.ofParts_filter _ _ _ _).symm⟩
  have nonempty := (Option.filter_eq_some_iff.mp empty).2
  simp at nonempty

theorem Finding.eq_entity_of_entity? {finding : Finding} {entity : Entity}
    (found : finding.entity? = some entity) : finding = .entity entity := by
  cases finding with
  | entity made =>
    cases found
    rfl
  | unnamed line => cases found

/-- An entity that is found was made of a comment that is attached to a candidate. -/
theorem exists_attachment_of_mem_findings {parsed : Script.Parsed} {options : Options}
    {entity : Entity} (found : entity ∈ (findingsOf parsed options).filterMap Finding.entity?) :
    ∃ attachment : Attachment, attachment.site ∈ parsed.program.candidates ∧
      attachment.Fits (.ofParsed parsed options) ∧
      attachment.finding (.ofParsed parsed options) = .entity entity := by
  obtain ⟨attachments, stretch⟩ := Walk.attaches_through parsed options
  have findings : findingsOf parsed options =
      attachments.map (Attachment.finding (.ofParsed parsed options)) := stretch.findings
  rw [findings, List.filterMap_map] at found
  obtain ⟨attachment, member, isEntity⟩ := List.mem_filterMap.mp found
  exact ⟨attachment, List.mem_of_find?_eq_some (stretch.first attachment member),
    stretch.fits attachment member, Finding.eq_entity_of_entity? isEntity⟩

/-- Whatever is found in a source has the namepath of its parts. -/
theorem enteredAs_of_mem_findings {parsed : Script.Parsed} {options : Options} {entity : Entity}
    (found : entity ∈ (findingsOf parsed options).filterMap Finding.entity?) :
    entity.EnteredAs entity.kind := by
  obtain ⟨attachment, -, -, made⟩ := exists_attachment_of_mem_findings found
  exact Evidence.enteredAs_of_toEntity? (Attachment.toEntity?_of_finding made)

namespace Table

theorem mem_of_mem_ofList {entities : List Entity} {entity : Entity}
    (member : entity ∈ (ofList entities).entries) : entity ∈ entities := by
  have stored := get?_of_mem member
  rw [ofList, get?_insertAll] at stored
  have last : entities.reverse.find? (fun other => other.id = entity.id) = some entity := by
    simpa [empty, get?, position?] using stored
  exact List.mem_reverse.mp (List.mem_of_find?_eq_some last)

/-- Correcting kinds leaves the entity as it was entered, or makes it a namespace or a class. -/
theorem exists_before_resolve {table : Table} {resolution : Resolution} {entity : Entity}
    (member : entity ∈ (table.resolve resolution).table.entries) :
    ∃ before ∈ table.entries, before.withKind entity.kind = entity ∧
      (entity.kind = before.kind ∨ entity.kind = some .namespaceKind ∨
        entity.kind = some .classKind) := by
  have steps := Resolved.steps_resolve table resolution
  obtain ⟨before, inTable, rfl⟩ := origin_of_steps steps member
  refine ⟨before, inTable, rfl, ?_⟩
  rw [Entity.withKind_kind]
  rcases justified_of_steps steps inTable with same | ⟨promoted, -⟩ | ⟨promoted, -⟩
  · exact Or.inl same
  · exact Or.inr (Or.inl promoted)
  · exact Or.inr (Or.inr promoted)

end Table

/-! ### The finished table -/

/-- What the namepath of an entity of a table says of it, given the entity as it was entered. -/
structure Entity.StoredIn (table : Table) (entity before : Entity) : Prop where
  stored : table.get? entity.id = some entity
  container : entity.container ≠ some ""
  /-- Only the kind may have been corrected. -/
  corrected : before.withKind entity.kind = entity
  kind : entity.kind = before.kind ∨ entity.kind = some .namespaceKind ∨
    entity.kind = some .classKind
  id : entity.id =
    Namepath.ofParts entity.container entity.name entity.isInstanceMember before.kind
  /-- The name of an event stands behind its mark. -/
  event : entity.kind = some .event →
    (Namepath.eventMark ++ entity.name).toList <:+ entity.id.toList
  /-- The separator behind the container tells an instance member. -/
  junction : ∀ owner, entity.container = some owner →
    owner.toList <+: entity.id.toList ∧
      (entity.id.toList[owner.toList.length]? = some '#' ↔ entity.isInstanceMember = true)

theorem Entity.EnteredAs.storedIn {table : Table} {entity before : Entity}
    (entered : before.EnteredAs before.kind) (member : entity ∈ table.entries)
    (same : before.withKind entity.kind = entity)
    (kind : entity.kind = before.kind ∨ entity.kind = some .namespaceKind ∨
      entity.kind = some .classKind) : entity.StoredIn table before := by
  have container : entity.container ≠ some "" := by
    rw [← same]
    exact entered.container
  have id : entity.id =
      Namepath.ofParts entity.container entity.name entity.isInstanceMember before.kind := by
    rw [← same]
    exact entered.id
  refine ⟨Table.get?_of_mem member, container, same, kind, id, fun event => ?_,
    fun owner held => ?_⟩
  · have wasEvent : before.kind = some .event := by
      rcases kind with unchanged | promoted | promoted
      · rw [← unchanged, event]
      · rw [event] at promoted
        cases promoted
      · rw [event] at promoted
        cases promoted
    have suffix := Namepath.markedName_suffix_ofParts entity.container entity.name
      entity.isInstanceMember before.kind
    rwa [← id, Namepath.markedName, if_pos wasEvent] at suffix
  · have named : owner ≠ "" := fun empty => container (by rw [held, empty])
    have junction := Namepath.junction_ofParts named entity.name entity.isInstanceMember before.kind
    rw [held] at id
    rw [← id] at junction
    refine ⟨?_, ?_⟩
    · rw [id, Namepath.ofParts_some named, String.toList_append]
      exact List.prefix_append _ _
    · rw [junction]
      cases entity.isInstanceMember <;> decide

theorem extractSource_of_parse {code : String} {options : Options} {parsed : Script.Parsed}
    (read : parseSource code (options.sourceName.getD anonymousSource) = .ok parsed) :
    extractSource code options = .ok (Table.ofFindings (findingsOf parsed options)) := by
  rw [extractSource, extractFindings, read]
  rfl

theorem documentSource_of_parse {code : String} {options : Options} {parsed : Script.Parsed}
    (read : parseSource code (options.sourceName.getD anonymousSource) = .ok parsed) :
    documentSource code options =
      .ok ((Table.ofFindings (findingsOf parsed options)).resolve options.resolution).table := by
  rw [documentSource, extractSource_of_parse read]
  rfl

/-- Every entity of the table of a source that can be read is stored under the namepath of its
parts, with the kind it was entered with. -/
theorem stored_under_parts {code : String} {options : Options} {parsed : Script.Parsed}
    (read : parseSource code (options.sourceName.getD anonymousSource) = .ok parsed) :
    ∃ extracted table, extractSource code options = .ok extracted ∧
      documentSource code options = .ok table ∧
      ∀ entity ∈ table.entries, ∃ before ∈ extracted.entries, entity.StoredIn table before := by
  refine ⟨_, _, extractSource_of_parse read, documentSource_of_parse read, ?_⟩
  intro entity member
  obtain ⟨before, inTable, same, kind⟩ := Table.exists_before_resolve member
  have entered := enteredAs_of_mem_findings (Table.mem_of_mem_ofList inTable)
  exact ⟨before, inTable, entered.storedIn member same kind⟩

/-- A member that its comment makes an event. -/
def memberEventSource : String :=
  "/**@event*/\na.b"

theorem exists_memberEvent :
    ∃ parsed, parseSource memberEventSource anonymousSource = .ok parsed ∧
      (Table.ofFindings (findingsOf parsed {})).ids = ["a.event:b"] := by
  have computed : (Script.parse? memberEventSource false).map (fun parsed =>
      ((findingsOf parsed {}).filterMap Finding.entity?).map Entity.id) =
      some ["a.event:b"] := by
    simp only [findingsOf, Surroundings.ofParsed, CommentIndex.collect_eq_insertionSort]
    decide +kernel
  obtain ⟨parsed, read, ids⟩ := Option.map_eq_some_iff.mp computed
  have noElements : allowsElements anonymousSource = false := by decide
  refine ⟨parsed, ?_, ?_⟩
  · rw [parseSource, noElements, read]
  · rw [Table.ofFindings, Table.ofList, Table.ids_insertAll, ids]
    decide

theorem stored_memberEvent :
    ∃ parsed extracted table entity before,
      parseSource memberEventSource anonymousSource = .ok parsed ∧
      extractSource memberEventSource {} = .ok extracted ∧
      documentSource memberEventSource {} = .ok table ∧
      entity ∈ table.entries ∧ entity.id = "a.event:b" ∧
      before ∈ extracted.entries ∧ entity.StoredIn table before := by
  obtain ⟨parsed, read, ids⟩ := exists_memberEvent
  obtain ⟨extracted, table, isExtracted, isDocumented, stored⟩ :=
    @stored_under_parts memberEventSource {} parsed read
  have finished : table.ids = ["a.event:b"] := by
    have resolved := (@documentSource_of_parse memberEventSource {} parsed read).symm
    obtain rfl := Except.ok.inj (resolved.trans isDocumented)
    rw [Table.ids_resolve, ids]
  obtain ⟨entity, member, named⟩ : ∃ entity ∈ table.entries, entity.id = "a.event:b" :=
    List.mem_map.mp (by rw [← Table.ids, finished]; exact List.mem_singleton_self _)
  obtain ⟨before, inExtracted, isStored⟩ := stored entity member
  exact ⟨parsed, extracted, table, entity, before, read, isExtracted, isDocumented, member, named,
    inExtracted, isStored⟩

end DocEntities
