/-
This file holds the laws of namepaths. A namepath of a path has no prototype segment left: the
separators that stand for the prototypes swallow the dots around them, and what comes to stand
next to a separator is no whole segment any more. So it is its own namepath. And a path that does
not name the prototype twice in a row has the namepath of its parts, with the instance flag that
its end tells.

The parts of an entity can be read off its namepath again, if its name has neither a separator nor
the mark of an event. The container may hold separators of its own, so the namepath is read from
the right: the last separator in it is the one in front of the name.
-/

import DocEntities.Proofs.Namepath
import Mathlib.Data.List.Chain

namespace DocEntities.Namepath

/-! ### Prototypes in a text -/

/-- A text holds a prototype segment with an owner in front, in its middle or at its end. -/
def HoldsPrototype (text : String) : Prop :=
  ∃ front back, text = front ++ ".prototype" ++ back ∧ (back = "" ∨ ∃ more, back = "." ++ more)

theorem dotted_append (front back : List String) :
    dotted (front ++ back) = dotted front ++ dotted back := by
  induction front with
  | nil => rw [List.nil_append, dotted, String.empty_append]
  | cons segment rest inductionHypothesis =>
    rw [List.cons_append, dotted, inductionHypothesis, dotted]
    simp only [String.append_assoc]

theorem holdsPrototype_iff {text : String} :
    HoldsPrototype text ↔ prototypeSegment ∈ (segments text).tail := by
  have alone : segments prototypeSegment = [prototypeSegment] := by decide
  constructor
  · rintro ⟨front, back, rfl, rest⟩
    obtain ⟨first, more, cut⟩ := List.exists_cons_of_ne_nil (segments_ne_nil front)
    have opened : front ++ ".prototype" = front ++ "." ++ prototypeSegment := by
      rw [String.append_assoc]
      rfl
    rcases rest with rfl | ⟨behind, rfl⟩
    · rw [String.append_empty, opened, segments_append, alone, cut]
      simp
    · rw [opened, ← String.append_assoc, segments_append, segments_append, alone, cut]
      simp
  · intro member
    obtain ⟨first, tail, cut⟩ := List.exists_cons_of_ne_nil (segments_ne_nil text)
    rw [cut, List.tail_cons] at member
    obtain ⟨before, after, rfl⟩ := List.append_of_mem member
    refine ⟨first ++ dotted before, dotted after, ?_, ?_⟩
    · have word : ".prototype" = "." ++ prototypeSegment := rfl
      rw [← join_segments text, cut, join_cons, dotted_append, dotted, word]
      simp only [String.append_assoc]
    · cases after with
      | nil => exact Or.inl rfl
      | cons next rest => exact Or.inr ⟨_, dotted_of_ne_nil (List.cons_ne_nil _ _)⟩

theorem ends_prototype_iff {path : String} :
    ".prototype".toList <:+ path.toList ↔
      (segments path).tail.getLast? = some prototypeSegment := by
  have alone : segments prototypeSegment = [prototypeSegment] := by decide
  constructor
  · rintro ⟨front, equal⟩
    obtain ⟨first, more, cut⟩ := List.exists_cons_of_ne_nil (segments_ne_nil (String.ofList front))
    have ends : path = String.ofList front ++ "." ++ prototypeSegment := by
      have word : ".prototype" = "." ++ prototypeSegment := rfl
      have kept : (String.ofList front).toList = front := String.toList_ofList
      rw [← String.toList_inj, ← equal, String.append_assoc, ← word, String.toList_append, kept]
    rw [ends, segments_append, alone, cut, List.cons_append, List.tail_cons, List.getLast?_concat]
  · intro last
    obtain ⟨first, tail, cut⟩ := List.exists_cons_of_ne_nil (segments_ne_nil path)
    rw [cut, List.tail_cons] at last
    obtain ⟨front, rfl⟩ := List.getLast?_eq_some_iff.mp last
    have ends : path = Text.join "." (first :: front) ++ ".prototype" := by
      rw [← join_segments path, cut, ← List.cons_append, join_concat (List.cons_ne_nil _ _),
        String.append_assoc]
      rfl
    rw [ends, String.toList_append]
    exact List.suffix_append _ _

/-! ### Normal namepaths -/

/-- Behind a segment the namepath text of further ones is cut into that segment, or one that has a
separator in it, and segments that are no prototype. -/
theorem exists_segments_append_renderTail {front : String} (frontFree : '.' ∉ front.toList)
    {tail : List String} (free : ∀ segment ∈ tail, '.' ∉ segment.toList) :
    ∃ head later, segments (front ++ renderTail tail) = head :: later ∧
      (head = front ∨ '#' ∈ head.toList) ∧ prototypeSegment ∉ later := by
  fun_induction renderTail tail generalizing front with
  | case1 =>
    rw [String.append_empty, segments_of_free frontFree]
    exact ⟨front, [], rfl, Or.inl rfl, List.not_mem_nil⟩
  | case2 segment isPrototype =>
    have joined : '.' ∉ (front ++ "#").toList := by simpa using frontFree
    rw [segments_of_free joined]
    exact ⟨_, [], rfl, Or.inr (by simp), List.not_mem_nil⟩
  | case3 segment plain =>
    have segmentFree := free segment List.mem_cons_self
    rw [← String.append_assoc, segments_append, segments_of_free frontFree,
      segments_of_free segmentFree]
    refine ⟨front, [segment], rfl, Or.inl rfl, ?_⟩
    rw [List.mem_singleton]
    exact fun same => plain (beq_iff_eq.mpr same.symm)
  | case4 segment next rest isPrototype inductionHypothesis =>
    -- The separator glues the next segment to what stands in front.
    have nextFree := free next (by simp)
    have joined : '.' ∉ (front ++ "#" ++ next).toList := by
      simp [frontFree, nextFree]
    obtain ⟨head, later, cut, kept, normal⟩ := inductionHypothesis joined fun other member =>
      free other (List.mem_cons_of_mem _ (List.mem_cons_of_mem _ member))
    have text : front ++ ("#" ++ next ++ renderTail rest) =
        front ++ "#" ++ next ++ renderTail rest := by
      simp only [String.append_assoc]
    refine ⟨head, later, text ▸ cut, Or.inr ?_, normal⟩
    rcases kept with rfl | separated
    · simp
    · exact separated
  | case5 segment next rest plain inductionHypothesis =>
    obtain ⟨head, later, cut, kept, normal⟩ :=
      inductionHypothesis (free segment List.mem_cons_self) fun other member =>
        free other (List.mem_cons_of_mem _ member)
    have text : front ++ ("." ++ segment ++ renderTail (next :: rest)) =
        front ++ "." ++ (segment ++ renderTail (next :: rest)) := by
      simp only [String.append_assoc]
    rw [text, segments_append, segments_of_free frontFree, cut]
    refine ⟨front, head :: later, rfl, Or.inl rfl, ?_⟩
    intro member
    rcases List.mem_cons.mp member with same | inLater
    · rcases kept with rfl | separated
      · exact plain (beq_iff_eq.mpr same.symm)
      · rw [← same] at separated
        exact absurd separated (by decide)
    · exact normal inLater

theorem normal_ofSegments {path : List String} (free : ∀ segment ∈ path, '.' ∉ segment.toList) :
    prototypeSegment ∉ (segments (ofSegments path)).tail := by
  cases path with
  | nil => decide
  | cons first tail =>
    obtain ⟨head, later, cut, -, normal⟩ :=
      exists_segments_append_renderTail (free first List.mem_cons_self) fun segment member =>
        free segment (List.mem_cons_of_mem _ member)
    rw [ofSegments, cut]
    exact normal

theorem dropPrototype_sublist (path : List String) : (dropPrototype path).Sublist path := by
  cases path with
  | nil => exact List.Sublist.slnil
  | cons first tail =>
    rcases List.eq_nil_or_concat' tail with rfl | ⟨front, last, rfl⟩
    · exact List.Sublist.refl _
    · rw [dropPrototype_concat]
      split
      · exact (List.sublist_append_left front [last]).cons_cons first
      · exact List.Sublist.refl _

theorem normal_ofPath (path : String) : prototypeSegment ∉ (segments (ofPath path)).tail :=
  normal_ofSegments fun _ member => dot_not_mem_of_mem_segments member

theorem normal_ofContainer (path : String) :
    prototypeSegment ∉ (segments (ofContainer path)).tail :=
  normal_ofSegments fun _ member =>
    dot_not_mem_of_mem_segments ((dropPrototype_sublist _).subset member)

/-- A text without a prototype segment is its own namepath. -/
theorem ofPath_of_normal {text : String} (normal : prototypeSegment ∉ (segments text).tail) :
    ofPath text = text := by
  obtain ⟨first, tail, cut⟩ := List.exists_cons_of_ne_nil (segments_ne_nil text)
  rw [cut, List.tail_cons] at normal
  rw [ofPath, cut, ofSegments, renderTail_of_free normal, ← join_cons, ← cut, join_segments]

theorem ofContainer_of_normal {text : String} (normal : prototypeSegment ∉ (segments text).tail) :
    ofContainer text = text := by
  have kept : dropPrototype (segments text) = segments text := by
    obtain ⟨first, tail, cut⟩ := List.exists_cons_of_ne_nil (segments_ne_nil text)
    rw [cut, List.tail_cons] at normal
    rw [cut]
    rcases List.eq_nil_or_concat' tail with rfl | ⟨front, last, rfl⟩
    · rfl
    · rw [dropPrototype_concat, if_neg]
      rintro rfl
      exact normal (by simp)
  rw [ofContainer, kept, ← ofPath, ofPath_of_normal normal]

/-! ### A path and its parts -/

section

variable {path : List String} (nonempty : path ≠ [])
  (plain : ∀ segment ∈ path, segment ≠ "" ∧ '.' ∉ segment.toList)

include nonempty plain

theorem ofContainer_join_ne_empty : ofContainer (Text.join "." path) ≠ "" := by
  rw [ofContainer, segments_join_of_free nonempty fun segment member => (plain segment member).2]
  obtain ⟨first, tail, rfl⟩ := List.exists_cons_of_ne_nil nonempty
  have named : first ≠ "" := (plain first List.mem_cons_self).1
  have starts : ∃ later, dropPrototype (first :: tail) = first :: later := by
    rcases List.eq_nil_or_concat' tail with rfl | ⟨front, last, rfl⟩
    · exact ⟨[], rfl⟩
    · rw [dropPrototype_concat]
      split
      · exact ⟨_, rfl⟩
      · exact ⟨_, rfl⟩
  obtain ⟨later, equal⟩ := starts
  rw [equal, ofSegments]
  exact fun empty => named (String.append_eq_empty_iff.mp empty).1

/-- Where no prototype follows another, a prototype at the end is read as the separator, and the
flag tells no more than whether there is one. -/
theorem tells_join_iff
    (apart : path.IsChain fun first second =>
      ¬(first = prototypeSegment ∧ second = prototypeSegment))
    {name : String} (nameFree : '.' ∉ name.toList) (named : name ≠ prototypeSegment)
    (instanceMember : Bool) :
    Tells (Text.join "." path) name instanceMember ↔
      (instanceMember = true ↔ ".prototype".toList <:+ (Text.join "." path).toList) := by
  have unnamed : prototypeSegment ∉ [name] := fun member =>
    named (List.mem_singleton.mp member).symm
  rw [ends_prototype_iff, Tells, segments_of_free nameFree,
    segments_join_of_free nonempty fun segment member => (plain segment member).2]
  obtain ⟨first, tail, rfl⟩ := List.exists_cons_of_ne_nil nonempty
  rcases List.eq_nil_or_concat' tail with rfl | ⟨front, last, rfl⟩
  · have closed : opensInstance [first] = false := rfl
    simp [closed, dropPrototype, unnamed]
  · rw [show (first :: (front ++ [last])).tail = front ++ [last] from rfl, List.getLast?_concat,
      Option.some.injEq]
    by_cases prototype : last = prototypeSegment
    · subst prototype
      have before : (first :: front).getLast? ≠ some prototypeSegment := by
        intro last
        rw [← List.cons_append] at apart
        exact (List.isChain_append.mp apart).2.2 _ last _ rfl ⟨rfl, rfl⟩
      have opened : opensInstance (first :: (front ++ [prototypeSegment])) = true := by
        rw [← List.cons_append, opensInstance_concat_prototype (List.cons_ne_nil _ _),
          opensInstance_eq_false before, Bool.not_false]
      simp [opened]
    · have different : (first :: (front ++ [last])).getLast? ≠ some prototypeSegment := by
        rw [← List.cons_append, List.getLast?_concat]
        exact fun same => prototype (Option.some.inj same)
      simp [opensInstance_eq_false different, dropPrototype_eq_self different, unnamed, prototype]

end

/-- Reading a namepath as a path changes nothing, since it holds no prototype; and the namepath of
a path is that of its parts exactly if the flag tells whether its container ends in a prototype,
for a name without a dot and a container of nonempty segments of which no two in a row are
prototypes. -/
theorem normalization_laws :
    (∀ path, ofPath (ofPath path) = ofPath path ∧
      ofContainer (ofContainer path) = ofContainer path ∧
      ¬HoldsPrototype (ofPath path) ∧ ¬HoldsPrototype (ofContainer path)) ∧
    ∀ (path : List String) (name : String), path ≠ [] →
      (∀ segment ∈ path, segment ≠ "" ∧ '.' ∉ segment.toList) →
      (path.IsChain fun first second => ¬(first = prototypeSegment ∧ second = prototypeSegment)) →
      '.' ∉ name.toList → name ≠ prototypeSegment → ∀ instanceMember,
        ofPath (Text.join "." path ++ "." ++ name) =
            ofParts (some (ofContainer (Text.join "." path))) name instanceMember none ↔
          (instanceMember = true ↔ ".prototype".toList <:+ (Text.join "." path).toList) := by
  refine ⟨fun path => ⟨?_, ?_, ?_, ?_⟩, ?_⟩
  · exact ofPath_of_normal (normal_ofPath path)
  · exact ofContainer_of_normal (normal_ofContainer path)
  · exact mt holdsPrototype_iff.mp (normal_ofPath path)
  · exact mt holdsPrototype_iff.mp (normal_ofContainer path)
  · intro path name nonempty plain apart nameFree named instanceMember
    have owned := ofContainer_join_ne_empty nonempty plain
    rw [ofPath_eq_ofParts_iff (by simp), and_iff_right owned]
    exact tells_join_iff nonempty plain apart nameFree named instanceMember

/-- The segment `prototype` counts as a name at the start of a path, and as the way to instances
wherever another one stands between. -/
theorem normalization_laws_nestedPrototype :
    let path := ["prototype", "a", "prototype", "b", "prototype"]
    path ≠ [] ∧ (∀ segment ∈ path, segment ≠ "" ∧ '.' ∉ segment.toList) ∧
      (path.IsChain fun first second =>
        ¬(first = prototypeSegment ∧ second = prototypeSegment)) ∧
      '.' ∉ "c".toList ∧ "c" ≠ prototypeSegment ∧
      ofPath (Text.join "." path ++ "." ++ "c") = "prototype.a#b#c" ∧
      ofPath (Text.join "." path ++ "." ++ "c") =
        ofParts (some (ofContainer (Text.join "." path))) "c" true none := by
  intro path
  have nonempty : path ≠ [] := List.cons_ne_nil _ _
  have plain : ∀ segment ∈ path, segment ≠ "" ∧ '.' ∉ segment.toList := by decide
  have apart : path.IsChain fun first second =>
      ¬(first = prototypeSegment ∧ second = prototypeSegment) := by decide
  have nameFree : '.' ∉ "c".toList := by decide
  have named : "c" ≠ prototypeSegment := by decide
  have ends : ".prototype".toList <:+ (Text.join "." path).toList := by decide
  refine ⟨nonempty, plain, apart, nameFree, named, by decide, ?_⟩
  exact (normalization_laws.2 path "c" nonempty plain apart nameFree named true).mpr
    (iff_of_true rfl ends)

/-! ### Reading the parts of a namepath -/

/-- A name that can be told from what stands in front of it in a namepath. -/
structure StandsAlone (name : String) : Prop where
  dot : '.' ∉ name.toList
  hash : '#' ∉ name.toList
  unmarked : ¬eventMark.toList <+: name.toList

/-- The container that a namepath shows. -/
def shownContainer (container : Option String) : Option String :=
  container.filter (fun owner => !owner.isEmpty)

section

variable {name otherName : String} (alone : StandsAlone name) (otherAlone : StandsAlone otherName)

include alone

theorem dot_not_mem_markedName (kind : Option Kind) : '.' ∉ (markedName name kind).toList := by
  unfold markedName
  split
  · rw [String.toList_append, List.mem_append]
    exact fun member => member.elim (by decide) alone.dot
  · exact alone.dot

theorem hash_not_mem_markedName (kind : Option Kind) : '#' ∉ (markedName name kind).toList := by
  unfold markedName
  split
  · rw [String.toList_append, List.mem_append]
    exact fun member => member.elim (by decide) alone.hash
  · exact alone.hash

theorem separator_not_mem_markedName (kind : Option Kind) (instanceMember : Bool) :
    (if instanceMember then '#' else '.') ∉ (markedName name kind).toList := by
  cases instanceMember
  · exact dot_not_mem_markedName alone kind
  · exact hash_not_mem_markedName alone kind

include otherAlone

/-- No name takes on the mark of an event, so a mark tells an event. -/
theorem markedName_eq_iff (kind otherKind : Option Kind) :
    markedName name kind = markedName otherName otherKind ↔
      name = otherName ∧ (kind = some .event ↔ otherKind = some .event) := by
  have marked (word : String) : eventMark.toList <+: (eventMark ++ word).toList := by
    rw [String.toList_append]
    exact List.prefix_append _ _
  unfold markedName
  by_cases event : kind = some .event <;> by_cases otherEvent : otherKind = some .event
  · rw [if_pos event, if_pos otherEvent, String.append_right_inj, iff_true_intro event,
      iff_true_intro otherEvent, iff_self, and_true]
  · rw [if_pos event, if_neg otherEvent]
    refine iff_of_false (fun equal => ?_) fun both => otherEvent (both.2.mp event)
    exact otherAlone.unmarked (equal ▸ marked name)
  · rw [if_neg event, if_pos otherEvent]
    refine iff_of_false (fun equal => ?_) fun both => event (both.2.mpr otherEvent)
    exact alone.unmarked (equal ▸ marked otherName)
  · rw [if_neg event, if_neg otherEvent, iff_false_intro event, iff_false_intro otherEvent,
      iff_self, and_true]

end

theorem toList_ofParts_some {owner : String} (named : owner ≠ "") (name : String)
    (instanceMember : Bool) (kind : Option Kind) :
    (ofParts (some owner) name instanceMember kind).toList =
      owner.toList ++ (if instanceMember then '#' else '.') :: (markedName name kind).toList := by
  rw [ofParts_some named, String.toList_append, String.toList_append]
  cases instanceMember <;> rfl

/-- A namepath with a container is none without. -/
theorem ofParts_none_ne_ofParts_some {name : String} (alone : StandsAlone name) {owner : String}
    (named : owner ≠ "") (otherName : String) (instanceMember otherInstance : Bool)
    (kind otherKind : Option Kind) :
    ofParts none name instanceMember kind ≠
      ofParts (some owner) otherName otherInstance otherKind := by
  intro equal
  have inside : (if otherInstance then '#' else '.') ∈ (markedName name kind).toList := by
    have text : markedName name kind = ofParts (some owner) otherName otherInstance otherKind :=
      equal
    rw [text, toList_ofParts_some named]
    simp
  exact separator_not_mem_markedName alone kind otherInstance inside

/-- Two namepaths are the same exactly if their parts are, as far as a namepath shows them: the
name, the container unless it is empty, whether the entity is an event, and behind a container
whether it is an instance member. -/
theorem ofParts_eq_ofParts_iff {name otherName : String} (alone : StandsAlone name)
    (otherAlone : StandsAlone otherName) (container otherContainer : Option String)
    (instanceMember otherInstance : Bool) (kind otherKind : Option Kind) :
    ofParts container name instanceMember kind =
        ofParts otherContainer otherName otherInstance otherKind ↔
      name = otherName ∧ shownContainer container = shownContainer otherContainer ∧
        (kind = some .event ↔ otherKind = some .event) ∧
        (shownContainer container ≠ none → instanceMember = otherInstance) := by
  have nonempty (container : Option String) : shownContainer container ≠ some "" := by
    intro empty
    simpa using (Option.filter_eq_some_iff.mp empty).2
  have shown := nonempty container
  have otherShown := nonempty otherContainer
  rw [← ofParts_filter container, ← ofParts_filter otherContainer]
  show ofParts (shownContainer container) _ _ _ = ofParts (shownContainer otherContainer) _ _ _ ↔ _
  generalize shownContainer container = owner? at shown ⊢
  generalize shownContainer otherContainer = otherOwner? at otherShown ⊢
  cases owner? with
  | none =>
    cases otherOwner? with
    | none =>
      show markedName name kind = markedName otherName otherKind ↔ _
      rw [markedName_eq_iff alone otherAlone]
      simp
    | some other =>
      have named : other ≠ "" := fun empty => otherShown (congrArg some empty)
      exact iff_of_false (ofParts_none_ne_ofParts_some alone named _ _ _ _ _) fun both =>
        nomatch both.2.1
  | some owner =>
    have named : owner ≠ "" := fun empty => shown (congrArg some empty)
    cases otherOwner? with
    | none =>
      exact iff_of_false (ofParts_none_ne_ofParts_some otherAlone named _ _ _ _ _).symm fun both =>
        nomatch both.2.1
    | some other =>
      have otherNamed : other ≠ "" := fun empty => otherShown (congrArg some empty)
      have marks : (if instanceMember then '#' else '.') = (if otherInstance then '#' else '.') ↔
          instanceMember = otherInstance := by
        cases instanceMember <;> cases otherInstance <;> decide
      rw [← String.toList_inj, toList_ofParts_some named, toList_ofParts_some otherNamed,
        Text.append_cons_eq_iff (separator_not_mem_markedName alone kind otherInstance)
          (separator_not_mem_markedName otherAlone otherKind instanceMember),
        String.toList_inj, String.toList_inj, marks, markedName_eq_iff alone otherAlone]
      constructor
      · rintro ⟨rfl, sameInstance, sameName, sameEvent⟩
        exact ⟨sameName, rfl, sameEvent, fun _ => sameInstance⟩
      · rintro ⟨sameName, sameOwner, sameEvent, sameInstance⟩
        exact ⟨Option.some.inj sameOwner, sameInstance nofun, sameName, sameEvent⟩

/-- The container may look like a namepath itself, and the name like the word for an event. Without
a container, the mark of an instance member is not shown. -/
theorem ofParts_eq_ofParts_iff_nestedOwner :
    StandsAlone "event" ∧ StandsAlone "c" ∧
      ofParts (some "a.event:b") "event" true none ≠ ofParts (some "a") "c" false (some .event) ∧
      ofParts (some "") "event" true none = ofParts none "event" false (some .function) := by
  have alone : StandsAlone "event" := ⟨by decide, by decide, by decide⟩
  have otherAlone : StandsAlone "c" := ⟨by decide, by decide, by decide⟩
  refine ⟨alone, otherAlone, fun same => ?_, ?_⟩
  · obtain ⟨-, sameOwner, -⟩ := (ofParts_eq_ofParts_iff alone otherAlone _ _ _ _ _ _).mp same
    exact absurd sameOwner (by decide)
  · exact (ofParts_eq_ofParts_iff alone alone _ _ _ _ _ _).mpr
      ⟨rfl, by decide, by decide, fun shown => absurd rfl shown⟩

end DocEntities.Namepath
