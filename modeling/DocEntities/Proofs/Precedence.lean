/-
This file says which evidence counts for an entity. Five layers lie on a documented site: its
origin, its line, its shape, the record that an enclosing class left for it, and its comment. They
are merged from the bottom to the top, so a field of the entity is what the topmost layer with
something to say says. Within a comment the tags lie over the words before them.
-/

import DocEntities.Proofs.FieldTags

namespace DocEntities

open Script

namespace Evidence

/-- Something is left in a field as soon as one of the layers says something. -/
theorem Field.isSaid_lastSaid {field : Field} {contents : List field.Content} :
    field.isSaid (field.lastSaid contents) = true ↔
      ∃ content ∈ contents, field.isSaid content = true := by
  rw [lastSaid]
  cases said : contents.reverse.find? field.isSaid with
  | none =>
    have silent := List.find?_eq_none.mp said
    refine iff_of_false (by rw [Option.getD_none, isSaid_silence]; exact Bool.false_ne_true) ?_
    rintro ⟨content, member, isSaid⟩
    exact silent content (List.mem_reverse.mpr member) isSaid
  | some content =>
    exact iff_of_true (List.find?_some said)
      ⟨content, List.mem_reverse.mp (List.mem_of_find?_eq_some said), List.find?_some said⟩

/-- What the tags of a comment say is what the comment says. -/
theorem get_ofComment_of_isSaid {text : String} {field : Field}
    (said : field.isSaid ((ofTags (Comment.tags text)).get field) = true) :
    (ofComment text).get field = (ofTags (Comment.tags text)).get field := by
  obtain ⟨description, summary, merged⟩ := ofComment_eq_merge text
  rw [merged, get_merge, Field.overlay, if_pos said]

end Evidence

/-! ### What an entity shows -/

/-- What an entity makes of the content of a field. The namepath that the code gives is no part of
it, since it is stored under the one of its parts; an empty container counts as none, and a flag
that nobody tells is off. -/
def Entity.Shows (entity : Entity) : (field : Evidence.Field) → field.Content → Prop
  | .codeId => fun _ : Option String => entity.EnteredAs entity.kind
  | .kind => fun kind : Option Kind => entity.kind = kind
  | .name => fun name : Option String => some entity.name = name
  | .container => fun container : Option String =>
    entity.container = container.filter (fun owner => !owner.isEmpty)
  | .isInstanceMember => fun flag : Option Bool => entity.isInstanceMember = flag.getD false
  | .inheritsFrom => fun base : Option String => entity.inheritsFrom = base
  | .params => fun params : List Param => entity.params = params
  | .returns => fun returns : List Returned => entity.returns = returns
  | .types => fun types : Option (List String) => entity.types = types
  | .description => fun text : Option String => entity.description = text
  | .summary => fun text : Option String => entity.summary = text
  | .deprecated => fun flag : Option Bool => entity.deprecated = flag.getD false
  | .inheritdoc => fun flag : Option Bool => entity.inheritdoc = flag.getD false
  | .source => fun origin : Option Origin => entity.source = origin.getD {}
  | .remark name => fun remark : Option Remark => entity.remarks.get? name = remark

/-- An entity shows the evidence that it was made of, in every field. -/
theorem Evidence.shows_of_toEntity? {evidence : Evidence} {entity : Entity}
    (made : evidence.toEntity? = some entity) (field : Evidence.Field) :
    entity.Shows field (evidence.get field) := by
  have entered := enteredAs_of_toEntity? made
  obtain ⟨name, named, rfl⟩ := Option.map_eq_some_iff.mp made
  cases field with
  | codeId => exact entered
  | name => exact named.symm
  | _ => rfl

/-! ### The layers on a site -/

namespace Attachment

/-- The layers of evidence on a site, from the bottom to the top. -/
def layers (around : Surroundings) (attachment : Attachment) : List Evidence :=
  [{ source := some (Walk.origin around.options attachment.line) },
    .ofLine (around.lineText attachment.line) attachment.site.scope.isTopLevel,
    (attachment.site.shape.describe attachment.site.scope
      around.options.utilityNamespaces).evidence,
    attachment.record.getD .empty,
    .ofComment attachment.doc.text]

theorem evidence_eq_foldl (around : Surroundings) (attachment : Attachment) :
    attachment.evidence around = (attachment.layers around).foldl Evidence.merge .empty := by
  rw [layers, List.foldl_cons, Evidence.empty_merge]
  rfl

/-- What becomes of a comment is told by the layers on its site. -/
structure Layered (around : Surroundings) (attachment : Attachment) : Prop where
  /-- There is an entity as soon as one of the layers names it. -/
  named : (∃ entity, attachment.finding around = .entity entity) ↔
    ∃ layer ∈ attachment.layers around, layer.name.isSome
  /-- Of each field the entity shows what the topmost layer says that says something. -/
  topmost : ∀ entity, attachment.finding around = .entity entity → ∀ field,
    entity.Shows field
      (field.lastSaid ((attachment.layers around).map fun layer => layer.get field))
  /-- Nothing covers what the tags say. -/
  tagged : ∀ entity, attachment.finding around = .entity entity → ∀ field,
    field.isSaid ((Evidence.ofTags (Comment.tags attachment.doc.text)).get field) →
      entity.Shows field ((Evidence.ofTags (Comment.tags attachment.doc.text)).get field)

theorem layered (around : Surroundings) (attachment : Attachment) :
    attachment.Layered around := by
  have get (field : Evidence.Field) : (attachment.evidence around).get field =
      field.lastSaid ((attachment.layers around).map fun layer => layer.get field) := by
    rw [evidence_eq_foldl, Evidence.get_foldl_merge]
  have shows {entity : Entity} (found : attachment.finding around = .entity entity)
      (field : Evidence.Field) : entity.Shows field ((attachment.evidence around).get field) :=
    Evidence.shows_of_toEntity? (toEntity?_of_finding found) field
  refine ⟨?_, fun entity found field => ?_, fun entity found field said => ?_⟩
  · have named : (attachment.evidence around).name.isSome ↔
        ∃ layer ∈ attachment.layers around, layer.name.isSome := by
      refine (iff_of_eq (congrArg (Evidence.Field.name.isSaid · = true) (get .name))).trans ?_
      simp only [Evidence.Field.isSaid_lastSaid, List.mem_map, exists_exists_and_eq_and]
      rfl
    rw [← named, ← Option.isSome_map, ← Evidence.toEntity?, Option.isSome_iff_exists]
    exact exists_congr fun entity => ⟨toEntity?_of_finding, finding_of_toEntity?⟩
  · rw [← get]
    exact shows found field
  · have top : (attachment.evidence around).get field =
        (Evidence.ofComment attachment.doc.text).get field := by
      have onTop := Evidence.get_ofComment_of_isSaid said
      rw [evidence_eq, Evidence.get_merge, Evidence.Field.overlay, if_pos (onTop ▸ said)]
    rw [← Evidence.get_ofComment_of_isSaid said, ← top]
    exact shows found field

end Attachment

/-- Evidence is layered. Layers that are merged one after the other say in each field what the
last of them says that says something, so merging is associative, knowing nothing makes no
difference to either side, and a layer put on again hides nothing but what was put on it. Over a
whole walk, every entity shows what the layers on its site say; and in a source that has been read,
the record among them is the one that a documented class has left for the site. -/
theorem evidence_is_layered :
    (∀ (layers : List Evidence) (field : Evidence.Field),
      (layers.foldl Evidence.merge .empty).get field =
        field.lastSaid (layers.map fun layer => layer.get field)) ∧
    (∀ first second third : Evidence,
      (first.merge second).merge third = first.merge (second.merge third)) ∧
    (∀ evidence : Evidence,
      Evidence.empty.merge evidence = evidence ∧ evidence.merge .empty = evidence) ∧
    (∀ first second : Evidence, (first.merge second).merge first = second.merge first) ∧
    ∀ (program : Program) (around : Surroundings), ∃ attachments,
      Walk.Attaches around program.candidates {} attachments
        (Walk.along around (.ofProgram program) {}) ∧
      (∀ attachment ∈ attachments, attachment.Layered around) ∧
      ∀ code elements parsed, parse? code elements = some parsed → parsed.program = program →
        Walk.Recorded around attachments := by
  refine ⟨Evidence.get_foldl_merge, Evidence.merge_assoc,
    fun evidence => ⟨evidence.empty_merge, evidence.merge_empty⟩, Evidence.merge_merge_self,
    fun program around => ?_⟩
  obtain ⟨attachments, run⟩ := Walk.exists_run around program
  refine ⟨attachments, run.attaches (fun _ member => nomatch member),
    fun attachment _ => attachment.layered around, ?_⟩
  rintro code elements parsed read rfl
  exact run.recorded (placed_candidates read)

/-- A member of a class, whose comment gives it another name. -/
def renamedMemberSource : String :=
  "/***/\nA=B.extend(\x7b\n/**@name y*/\nm\x7d)"

theorem exists_renamedMember :
    ∃ parsed, parse? renamedMemberSource false = some parsed ∧
      ∀ attachments, Walk.Attaches (.ofParsed parsed {}) parsed.program.candidates {} attachments
          (Walk.through parsed {}) →
        ∃ holder member, attachments = [holder, member] ∧
          (32, memberRecord "A" "m") ∈ holder.site.records (.ofParsed parsed {}) ∧
          member.site = ⟨⟨["A"], 0⟩, ⟨32, 4⟩, .property (some "m") .plain⟩ ∧
          member.doc.text = "@name y" := by
  have computed : (parse? renamedMemberSource false).map (fun parsed =>
      let first (line : Nat) := ((Outline.ofProgram parsed.program).sites .outermost).find?
        (fun site => site.line == line)
      (first 2, first 4, (Surroundings.ofParsed parsed {}).comments.preceding? 4,
        (Walk.through parsed {}).claimed)) =
      some (some ⟨⟨[], 0⟩, ⟨6, 2⟩, .binding (some "A") (.extension (some "B") [(32, "m")])⟩,
        some ⟨⟨["A"], 0⟩, ⟨32, 4⟩, .property (some "m") .plain⟩, some ⟨"@name y", 3, 3⟩,
        [4, 2]) := by
    simp only [Walk.through, Surroundings.ofParsed, CommentIndex.collect_eq_insertionSort]
    decide +kernel
  obtain ⟨parsed, read, equal⟩ := Option.map_eq_some_iff.mp computed
  simp only [Outline.sites_ofProgram, Prod.mk.injEq] at equal
  obtain ⟨classSite, memberSite, memberDoc, claimed⟩ := equal
  refine ⟨parsed, read, fun attachments stretch => ?_⟩
  obtain ⟨holder, member, rfl, -, memberLine, holderSite, ownSite⟩ := stretch.exists_pair claimed
  have doc := (stretch.fits member (by simp)).doc
  rw [classSite, Option.some.injEq] at holderSite
  rw [memberSite, Option.some.injEq] at ownSite
  rw [memberLine, memberDoc, Option.some.injEq] at doc
  refine ⟨holder, member, rfl, ?_, ownSite.symm, by rw [← doc]⟩
  have plain : isUtility ({} : Options).utilityNamespaces (some "B") = false := by decide
  rw [← holderSite]
  exact Shape.mem_records_describe_iff.mpr
    ⟨some "B", [(32, "m")], "A", rfl, plain, rfl, (32, "m"), List.mem_singleton_self _, rfl⟩

theorem evidence_is_layered_renamedMember :
    ∃ parsed holder member entity, parse? renamedMemberSource false = some parsed ∧
      Walk.Attaches (.ofParsed parsed {}) parsed.program.candidates {} [holder, member]
        (Walk.through parsed {}) ∧
      (member.site.shape.describe member.site.scope []).evidence.isInstanceMember = none ∧
      member.record = some (memberRecord "A" "m") ∧
      member.finding (.ofParsed parsed {}) = .entity entity ∧
      entity.name = "y" ∧ entity.isInstanceMember = true := by
  obtain ⟨parsed, read, all⟩ := exists_renamedMember
  obtain ⟨-, -, -, -, walks⟩ := evidence_is_layered
  obtain ⟨attachments, stretch, layered, recorded⟩ := walks parsed.program (.ofParsed parsed {})
  obtain ⟨holder, member, rfl, left, site, text⟩ := all attachments stretch
  have record : member.record = some (memberRecord "A" "m") :=
    (recorded renamedMemberSource false parsed read rfl [holder] member [] rfl _).mpr
      ⟨holder, List.mem_cons_self, by rw [site]; exact left⟩
  have onSite := layered member (by simp)
  have tagged : (Evidence.ofTags (Comment.tags member.doc.text)).get .name = some "y" := by
    rw [text]
    show (Evidence.ofTags (Comment.tags "@name y")).name = some "y"
    decide
  have untold : (Evidence.ofComment member.doc.text).isInstanceMember = none := by
    rw [text]
    decide
  obtain ⟨entity, found⟩ := onSite.named.mpr
    ⟨memberRecord "A" "m", by rw [Attachment.layers, record]; simp, rfl⟩
  have named := onSite.tagged entity found .name (by rw [tagged]; rfl)
  rw [tagged] at named
  have flag := onSite.topmost entity found .isInstanceMember
  have topmost : Evidence.Field.isInstanceMember.lastSaid
      ((member.layers (.ofParsed parsed {})).map fun layer => layer.get .isInstanceMember) =
        some true := by
    rw [Attachment.layers, record]
    show Evidence.Field.isInstanceMember.lastSaid
      [_, _, _, some true, (Evidence.ofComment member.doc.text).isInstanceMember] = some true
    rw [untold]
    rfl
  rw [topmost] at flag
  exact ⟨parsed, holder, member, entity, read, stretch, by rw [site]; rfl, record, found,
    Option.some.inj named, flag⟩

end DocEntities
