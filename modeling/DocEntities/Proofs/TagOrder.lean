/-
This file proves that the order of the tags of a comment matters only between tags that write a
common field. A tag writes one field, only a kind tag with a text writes two; a field is left as
it was by every other tag, and what a tag makes of it depends on that field alone. So a field can
be followed on its own: after any number of tags it is what the tags that write it make of it. An
order that keeps these tags in their order, for every field, cannot be told from the first one.
-/

import DocEntities.Comment.Reading
import Mathlib.Data.List.FinRange
import Mathlib.Data.List.Sort

namespace DocEntities

/-! ### Remarks -/

namespace Remarks

theorem find?_putSorted (key : String) (value : Remark) (entries : List (String × Remark))
    (other : String) :
    (putSorted key value entries).find? (fun entry => entry.1 == other) =
      if key = other then some (key, value) else entries.find? (fun entry => entry.1 == other) := by
  induction entries with
  | nil => by_cases same : key = other <;> simp [putSorted, same]
  | cons head rest inductionHypothesis =>
    rw [putSorted]
    by_cases before : key < head.1
    · rw [if_pos before]
      by_cases same : key = other <;> simp [same]
    · rw [if_neg before]
      by_cases replaced : key = head.1
      · rw [if_pos replaced]
        by_cases same : key = other <;> simp [same, ← replaced]
      · rw [if_neg replaced]
        by_cases here : head.1 = other
        · subst here
          simp [replaced]
        · simp [here, inductionHypothesis]

/-- Under its key the inserted remark is found, and under any other what was there before. -/
theorem get?_insert (remarks : Remarks) (key : String) (value : Remark) (other : String) :
    (remarks.insert key value).get? other =
      if key = other then some value else remarks.get? other := by
  unfold get? insert
  simp only [find?_putSorted]
  split
  · rfl
  · rfl

theorem find?_of_mem {entries : List (String × Remark)} {entry : String × Remark}
    (ascending : entries.Pairwise (fun first second => first.1 < second.1))
    (member : entry ∈ entries) :
    entries.find? (fun other => other.1 == entry.1) = some entry := by
  induction entries with
  | nil => cases member
  | cons head rest inductionHypothesis =>
    obtain ⟨below, restAscending⟩ := List.pairwise_cons.mp ascending
    rcases List.mem_cons.mp member with rfl | later
    · rw [List.find?_cons_of_pos (by simp)]
    · have different : head.1 ≠ entry.1 := fun same => Std.lt_irrefl (same ▸ below entry later)
      rw [List.find?_cons_of_neg (by simpa using different), inductionHypothesis restAscending later]

theorem mem_entries_iff {remarks : Remarks} {entry : String × Remark} :
    entry ∈ remarks.entries ↔ remarks.get? entry.1 = some entry.2 := by
  constructor
  · intro member
    rw [get?, find?_of_mem remarks.ascending member]
    rfl
  · intro found
    obtain ⟨other, first, value⟩ := Option.map_eq_some_iff.mp found
    have key : other.1 = entry.1 := by simpa using List.find?_some first
    rw [← Prod.ext key value]
    exact List.mem_of_find?_eq_some first

/-- Remarks that say the same under every key are equal. -/
theorem eq_of_get?_eq {first second : Remarks} (same : ∀ key, first.get? key = second.get? key) :
    first = second := by
  have irreflexive : Std.Irrefl (fun first second : String × Remark => first.1 < second.1) :=
    ⟨fun entry => Std.lt_irrefl⟩
  have antisymmetric : Std.Antisymm (fun first second : String × Remark => first.1 < second.1) :=
    ⟨fun entry other before behind => absurd (String.lt_trans before behind) Std.lt_irrefl⟩
  have entries : first.entries = second.entries :=
    first.ascending.eq_of_mem_iff second.ascending fun entry => by
      rw [mem_entries_iff, mem_entries_iff, same]
  cases first
  cases second
  cases entries
  rfl

end Remarks

/-! ### Fields -/

/-- A part of what is known of an entity. Each remark is one, under the name of its tag. -/
inductive Evidence.Field where
  | codeId
  | kind
  | name
  | container
  | isInstanceMember
  | inheritsFrom
  | params
  | returns
  | types
  | description
  | summary
  | deprecated
  | inheritdoc
  | source
  | remark (name : String)
  deriving DecidableEq

namespace Evidence

/-- What can be said in a field. -/
def Field.Content : Field → Type
  | codeId | name | container | inheritsFrom | description | summary => Option String
  | kind => Option Kind
  | isInstanceMember | deprecated | inheritdoc => Option Bool
  | params => List Param
  | returns => List Returned
  | types => Option (List String)
  | source => Option Origin
  | remark _ => Option Remark

/-- What evidence says in a field. -/
def get (evidence : Evidence) : (field : Field) → field.Content
  | .codeId => evidence.codeId
  | .kind => evidence.kind
  | .name => evidence.name
  | .container => evidence.container
  | .isInstanceMember => evidence.isInstanceMember
  | .inheritsFrom => evidence.inheritsFrom
  | .params => evidence.params
  | .returns => evidence.returns
  | .types => evidence.types
  | .description => evidence.description
  | .summary => evidence.summary
  | .deprecated => evidence.deprecated
  | .inheritdoc => evidence.inheritdoc
  | .source => evidence.source
  | .remark name => evidence.remarks.get? name

/-- Evidence is what it says in its fields. -/
theorem eq_of_get_eq {first second : Evidence} (same : ∀ field, first.get field = second.get field) :
    first = second := by
  have remarks : first.remarks = second.remarks :=
    Remarks.eq_of_get?_eq fun key => same (.remark key)
  cases first
  cases second
  simp only [mk.injEq]
  exact ⟨same .codeId, same .kind, same .name, same .container, same .isInstanceMember,
    same .inheritsFrom, same .params, same .returns, same .types, same .description,
    same .summary, same .deprecated, same .inheritdoc, same .source, remarks⟩

end Evidence

/-- What a tag without a role leaves under its name. -/
def Tag.remark (tag : Tag) : Remark :=
  match tag.description with
  | some text => .text text
  | none => .flag true

/-- The fields that a tag writes. -/
def Tag.fields (tag : Tag) : List Evidence.Field :=
  match TagRole.ofName tag.name with
  | .kind _ => if tag.description.isSome then [.kind, .name] else [.kind]
  | .param => [.params]
  | .returns => [.returns]
  | .name => [.name]
  | .deprecated => [.deprecated]
  | .inheritsFrom => [.inheritsFrom]
  | .types => [.types]
  | .instanceMember => [.isInstanceMember]
  | .description => [.description]
  | .summary => [.summary]
  | .inheritdoc => [.inheritdoc]
  | .container => [.container]
  | .remark => [.remark tag.name]

namespace Evidence

variable {field : Field} {tag : Tag}

/-- A change of evidence that makes something of each field by itself, and of no field but the
given ones. -/
def ActsOn (change : Evidence → Evidence) (fields : List Field) : Prop :=
  ∀ field : Field, ∃ write : field.Content → field.Content,
    (∀ evidence, (change evidence).get field = write (evidence.get field)) ∧
      (field ∉ fields → write = id)

theorem ActsOn.single {change : Evidence → Evidence} (written : Field)
    (write : written.Content → written.Content)
    (here : ∀ evidence, (change evidence).get written = write (evidence.get written))
    (elsewhere : ∀ field ≠ written, ∀ evidence, (change evidence).get field = evidence.get field) :
    ActsOn change [written] := by
  intro field
  by_cases same : field = written
  · subst same
    exact ⟨write, here, fun absent => absurd (List.mem_singleton_self _) absent⟩
  · exact ⟨id, elsewhere field same, fun _ => rfl⟩

theorem get_remark_insert (evidence : Evidence) (name : String) (value : Remark) :
    ({ evidence with remarks := evidence.remarks.insert name value } : Evidence).get
      (.remark name) = some value :=
  (Remarks.get?_insert _ _ _ _).trans (if_pos rfl)

/-- A tag makes something of each field that it writes, and of no other field. -/
theorem actsOn_applyTag (tag : Tag) : ActsOn (fun evidence => evidence.applyTag tag) tag.fields := by
  unfold applyTag Tag.fields
  cases role : TagRole.ofName tag.name with
  | kind kind =>
    cases described : tag.description with
    | none =>
      exact .single .kind (fun _ => some kind) (fun _ => rfl) fun field different _ => by
        cases field <;> trivial
    | some text =>
      intro field
      cases field with
      | kind =>
        have member : Field.kind ∈ [Field.kind, .name] := List.mem_cons_self
        exact ⟨fun _ => some kind, fun _ => rfl, fun absent => absurd member absent⟩
      | name =>
        have member : Field.name ∈ [Field.kind, .name] :=
          List.mem_cons_of_mem _ (List.mem_singleton_self _)
        exact ⟨fun _ => some text, fun _ => rfl, fun absent => absurd member absent⟩
      | _ => exact ⟨id, fun _ => rfl, fun _ => rfl⟩
  | param =>
    exact .single .params (fun params : List Param => params ++ tag.param?.toList) (fun _ => rfl)
      fun field different _ => by cases field <;> trivial
  | returns =>
    refine .single .returns (fun returns : List Returned =>
        if tag.isBare then returns else returns ++ [⟨tag.types, tag.description⟩])
      (fun evidence => ?_) fun field different evidence => ?_
    · by_cases bare : tag.isBare = true
      · simp only [if_pos bare]
      · simp only [if_neg bare]
        rfl
    · by_cases bare : tag.isBare = true
      · simp only [if_pos bare]
      · simp only [if_neg bare]
        cases field <;> trivial
  | name =>
    exact .single .name (fun _ => tag.description) (fun _ => rfl) fun field different _ => by
      cases field <;> trivial
  | deprecated =>
    exact .single .deprecated (fun _ => some true) (fun _ => rfl) fun field different _ => by
      cases field <;> trivial
  | inheritsFrom =>
    exact .single .inheritsFrom (fun _ => tag.description) (fun _ => rfl) fun field different _ => by
      cases field <;> trivial
  | types =>
    exact .single .types (fun _ => tag.types) (fun _ => rfl) fun field different _ => by
      cases field <;> trivial
  | instanceMember =>
    exact .single .isInstanceMember (fun _ => some true) (fun _ => rfl) fun field different _ => by
      cases field <;> trivial
  | description =>
    exact .single .description (fun _ => tag.description) (fun _ => rfl) fun field different _ => by
      cases field <;> trivial
  | summary =>
    exact .single .summary (fun _ => tag.description) (fun _ => rfl) fun field different _ => by
      cases field <;> trivial
  | inheritdoc =>
    exact .single .inheritdoc (fun _ => some true) (fun _ => rfl) fun field different _ => by
      cases field <;> trivial
  | container =>
    exact .single .container (fun _ => tag.description) (fun _ => rfl) fun field different _ => by
      cases field <;> trivial
  | remark =>
    refine .single (.remark tag.name) (fun _ => some tag.remark)
      (fun evidence => get_remark_insert evidence _ _) fun field different evidence => ?_
    cases field with
    | remark name =>
      have other : tag.name ≠ name := by
        rintro rfl
        exact different rfl
      exact (Remarks.get?_insert _ _ _ _).trans (if_neg other)
    | _ => rfl

/-- A tag leaves the fields alone that it does not write. -/
theorem get_applyTag_of_not_mem (untouched : field ∉ tag.fields) (evidence : Evidence) :
    (evidence.applyTag tag).get field = evidence.get field := by
  obtain ⟨write, writes, idle⟩ := actsOn_applyTag tag field
  rw [writes, idle untouched, id]

/-- What a tag makes of a field depends on that field alone. -/
theorem get_applyTag_congr {first second : Evidence} (same : first.get field = second.get field)
    (tag : Tag) : (first.applyTag tag).get field = (second.applyTag tag).get field := by
  obtain ⟨write, writes, -⟩ := actsOn_applyTag tag field
  rw [writes, writes, same]

/-- A field is what the tags that write it make of it. -/
theorem get_foldl_applyTag {first second : Evidence} (same : first.get field = second.get field)
    (tags : List Tag) :
    (tags.foldl applyTag first).get field =
      ((tags.filter (fun tag => field ∈ tag.fields)).foldl applyTag second).get field := by
  induction tags generalizing first second with
  | nil => exact same
  | cons tag rest inductionHypothesis =>
    by_cases writes : field ∈ tag.fields
    · rw [List.filter_cons_of_pos (by simpa using writes), List.foldl_cons, List.foldl_cons]
      exact inductionHypothesis (get_applyTag_congr same tag)
    · rw [List.filter_cons_of_neg (by simpa using writes), List.foldl_cons]
      exact inductionHypothesis ((get_applyTag_of_not_mem writes first).trans same)

end Evidence

/-! ### Orders -/

namespace Tag

/-- Whether two tags write a common field. -/
def Conflicts (first second : Tag) : Prop :=
  ∃ field, field ∈ first.fields ∧ field ∈ second.fields

instance (first second : Tag) : Decidable (Conflicts first second) :=
  inferInstanceAs (Decidable (∃ field ∈ first.fields, field ∈ second.fields))

/-- The tags in the order in which a permutation goes through their places. -/
def inOrder (tags : List Tag) (order : Equiv.Perm (Fin tags.length)) : List Tag :=
  List.ofFn fun turn => tags[order turn]

/-- Of two tags that write a common field, the one that stands first comes first. -/
def KeepsConflicts (tags : List Tag) (order : Equiv.Perm (Fin tags.length)) : Prop :=
  ∀ earlier later, earlier < later → Conflicts tags[order earlier] tags[order later] →
    order earlier < order later

instance (tags : List Tag) (order : Equiv.Perm (Fin tags.length)) :
    Decidable (KeepsConflicts tags order) :=
  inferInstanceAs (Decidable (∀ earlier later, earlier < later →
    Conflicts tags[order earlier] tags[order later] → order earlier < order later))

/-- Seen from one field, an order that keeps the conflicts is no other order. -/
theorem filter_inOrder {tags : List Tag} {order : Equiv.Perm (Fin tags.length)}
    (keeps : KeepsConflicts tags order) (field : Evidence.Field) :
    (inOrder tags order).filter (fun tag => field ∈ tag.fields) =
      tags.filter (fun tag => field ∈ tag.fields) := by
  let places := List.finRange tags.length
  let writes (place : Fin tags.length) : Bool := field ∈ tags[place].fields
  -- The two lists hold the same places, and both ascend: the second one as it stands, the first
  -- one because any two of its tags write the field.
  have turns : (places.map order).filter writes = places.filter writes := by
    have perm : ((places.map order).filter writes).Perm (places.filter writes) :=
      (order.map_finRange_perm).filter writes
    have ascending : (places.filter writes).Pairwise (· < ·) :=
      (List.pairwise_lt_finRange _).filter _
    have turnsAscending : ((places.map order).filter writes).Pairwise (· < ·) := by
      rw [List.filter_map, List.pairwise_map]
      refine ((List.pairwise_lt_finRange _).filter _).imp_of_mem ?_
      intro earlier later first second before
      have writesFirst := (List.mem_filter.mp first).2
      have writesSecond := (List.mem_filter.mp second).2
      exact keeps earlier later before
        ⟨field, by simpa [writes] using writesFirst, by simpa [writes] using writesSecond⟩
    exact perm.eq_of_pairwise' turnsAscending ascending
  have ordered : inOrder tags order = (places.map order).map fun place => tags[place] := by
    rw [inOrder, List.ofFn_eq_map, List.map_map]
    rfl
  have inPlace : places.map (fun place => tags[place]) = tags := List.map_getElem_finRange tags
  rw [ordered, List.filter_map]
  conv_rhs => rw [← inPlace, List.filter_map]
  exact congrArg _ turns

end Tag

/-- Tags may be read in any order that keeps those in place that write a common field. -/
theorem foldl_applyTag_inOrder {tags : List Tag} {order : Equiv.Perm (Fin tags.length)}
    (keeps : Tag.KeepsConflicts tags order) (evidence : Evidence) :
    (Tag.inOrder tags order).foldl Evidence.applyTag evidence =
      tags.foldl Evidence.applyTag evidence := by
  refine Evidence.eq_of_get_eq fun field => ?_
  rw [Evidence.get_foldl_applyTag rfl, Evidence.get_foldl_applyTag rfl tags,
    Tag.filter_inOrder keeps field]

/-- The kind and the remark change places around one of two parameters, but the parameters keep
their order. -/
theorem foldl_applyTag_inOrder_classTags :
    let tags : List Tag :=
      [⟨"class", none, some "Tree"⟩, ⟨"param", some ["Node"], some "root"⟩,
        ⟨"see", none, some "Forest"⟩, ⟨"param", none, some "[depth]"⟩]
    let order : Equiv.Perm (Fin tags.length) := Equiv.swap ⟨0, by decide⟩ ⟨2, by decide⟩
    let start : Evidence := { kind := some .function, name := some "grow" }
    Tag.inOrder tags order = [tags[2], tags[1], tags[0], tags[3]] ∧
      Tag.KeepsConflicts tags order ∧
      (Tag.inOrder tags order).foldl Evidence.applyTag start =
        tags.foldl Evidence.applyTag start := by
  intro tags order start
  have keeps : Tag.KeepsConflicts tags order := by decide +kernel
  exact ⟨by decide +kernel, keeps, foldl_applyTag_inOrder keeps start⟩

end DocEntities
