/-
This file says what it means that an outline lies in a stretch of a source. What counts of a
site is its mark: where it starts, how many functions are around it, and whether it is a
property. The marks of a stretch start inside it; those that start where the stretch starts are
in no further function; marks that start at one offset are in equally many functions; and no two
properties start at one offset.

Outlines of adjacent stretches lie in the joint stretch. A site around an outline may start where
the outline starts, since whatever else starts there is in no function either; only what is
around a function or is itself a property has to start before what is inside it.
-/

import DocEntities.Proofs.ClassMembers
import DocEntities.Script.Cursor

namespace DocEntities

open Script

/-! ### Places in a source -/

namespace Script.Spot

/-- The start of a source. -/
def first (source : List Char) : Spot :=
  ⟨source, ⟨0, 1⟩⟩

def offset (spot : Spot) : Nat :=
  spot.position.offset

theorem advance_of_nil {spot : Spot} (done : spot.rest = []) (count : Nat) :
    spot.advance count = spot := by
  cases count with
  | zero => rfl
  | succ count => rw [advance, done]

theorem advance_add (first second : Nat) (spot : Spot) :
    spot.advance (first + second) = (spot.advance first).advance second := by
  induction first generalizing spot with
  | zero => rw [Nat.zero_add, advance]
  | succ first inductionHypothesis =>
    cases rest : spot.rest with
    | nil => rw [advance_of_nil rest, advance_of_nil rest, advance_of_nil rest]
    | cons c more =>
      rw [Nat.add_right_comm, advance, advance, rest]
      exact inductionHypothesis _

theorem offset_advance (count : Nat) (spot : Spot) :
    (spot.advance count).offset = spot.offset + min count spot.rest.length := by
  induction count generalizing spot with
  | zero => simp [advance]
  | succ count inductionHypothesis =>
    cases rest : spot.rest with
    | nil => simp [advance_of_nil rest]
    | cons c more =>
      rw [advance, rest]
      simp only
      rw [inductionHypothesis]
      simp only [offset, List.length_cons]
      omega

theorem le_offset_advance (count : Nat) (spot : Spot) :
    spot.offset ≤ (spot.advance count).offset := by
  rw [offset_advance]
  exact Nat.le_add_right _ _

theorem lt_offset_advance {count : Nat} {spot : Spot} (some : 0 < count) (more : spot.rest ≠ []) :
    spot.offset < (spot.advance count).offset := by
  have length := List.length_pos_of_ne_nil more
  rw [offset_advance]
  omega

theorem advance_min (count : Nat) (spot : Spot) :
    spot.advance (min count spot.rest.length) = spot.advance count := by
  induction count generalizing spot with
  | zero => rw [Nat.zero_min]
  | succ count inductionHypothesis =>
    cases rest : spot.rest with
    | nil => rw [advance_of_nil rest, advance_of_nil rest]
    | cons c more =>
      rw [List.length_cons, Nat.succ_min_succ, advance, advance, rest]
      exact inductionHypothesis
        ⟨more, ⟨spot.position.offset + 1,
          if endsLine c more then spot.position.line + 1 else spot.position.line⟩⟩

/-- A spot is one of a source. -/
def Of (source : List Char) (spot : Spot) : Prop :=
  spot = (first source).advance spot.offset

theorem of_first (source : List Char) : (first source).Of source :=
  rfl

theorem of_advance_first (source : List Char) (count : Nat) :
    ((first source).advance count).Of source := by
  have offset : ((first source).advance count).offset =
      min count (first source).rest.length := by
    rw [offset_advance]
    exact Nat.zero_add _
  rw [Of, offset, advance_min]

theorem Of.advance {source : List Char} {spot : Spot} (isOf : spot.Of source) (count : Nat) :
    (spot.advance count).Of source := by
  rw [isOf, ← advance_add]
  exact of_advance_first source _

/-- Before another spot there is a character left. -/
theorem Of.rest_ne_nil {source : List Char} {spot other : Spot} (isOf : spot.Of source)
    (otherOf : other.Of source) (before : spot.offset < other.offset) : spot.rest ≠ [] := by
  intro ended
  have same : other = spot := by
    rw [otherOf, ← Nat.add_sub_cancel' (Nat.le_of_lt before), advance_add, ← isOf,
      advance_of_nil ended]
  rw [same] at before
  exact Nat.lt_irrefl _ before

end Script.Spot

/-- A position is one of a source, so that its offset tells its line. -/
def Script.Position.Of (source : List Char) (position : Position) : Prop :=
  position = ((Spot.first source).advance position.offset).position

theorem Script.Spot.Of.position {source : List Char} {spot : Spot} (isOf : spot.Of source) :
    spot.position.Of source := by
  unfold Spot.Of at isOf
  rw [Position.Of, ← Spot.offset, ← isOf]

theorem Script.Position.Of.line_eq {source : List Char} {position other : Position}
    (isOf : position.Of source) (otherOf : other.Of source)
    (same : position.offset = other.offset) : position.line = other.line := by
  rw [isOf, otherOf, same]

/-! ### Marks -/

/-- What counts of a site for where it stands. -/
structure Mark where
  start : Position
  depth : Nat
  isProperty : Bool

def Site.mark (site : Site) : Mark :=
  ⟨site.start, site.scope.depth, site.shape.isProperty⟩

theorem Shape.isProperty_ofExpr (expr : Expr) : (Shape.ofExpr expr).isProperty = false := by
  cases expr with
  | assign start target value =>
    cases target with
    | expr inner => cases inner <;> rfl
    | _ => rfl
  | _ => rfl

namespace Outline

/-- The marks of an outline inside a number of functions. -/
def marks : Outline → Nat → List Mark
  | .nil, _ => []
  | .site start shape inside after, depth =>
    ⟨start, depth, shape.isProperty⟩ :: (inside.marks depth ++ after.marks depth)
  | .within _ inside after, depth => inside.marks depth ++ after.marks depth
  | .function inside after, depth => inside.marks (depth + 1) ++ after.marks depth

theorem map_mark_sites (outline : Outline) (scope : Scope) :
    (outline.sites scope).map Site.mark = outline.marks scope.depth := by
  induction outline generalizing scope with
  | nil => rfl
  | site start shape inside after insideHypothesis afterHypothesis =>
    rw [sites, List.map_cons, List.map_append, insideHypothesis, afterHypothesis]
    rfl
  | within segments inside after insideHypothesis afterHypothesis =>
    rw [sites, List.map_append, insideHypothesis, afterHypothesis]
    rfl
  | function inside after insideHypothesis afterHypothesis =>
    rw [sites, List.map_append, insideHypothesis, afterHypothesis]
    rfl

@[simp]
theorem marks_nil (depth : Nat) : marks .nil depth = [] :=
  rfl

@[simp]
theorem marks_append (first second : Outline) (depth : Nat) :
    (first ++ second).marks depth = first.marks depth ++ second.marks depth := by
  change (first.append second).marks depth = _
  induction first generalizing depth with
  | nil => rfl
  | site start shape inside after _ inductionHypothesis =>
    simp [append, marks, inductionHypothesis]
  | within segments inside after _ inductionHypothesis =>
    simp [append, marks, inductionHypothesis]
  | function inside after _ inductionHypothesis =>
    simp [append, marks, inductionHypothesis]

@[simp]
theorem marks_single (start : Position) (shape : Shape) (inside : Outline) (depth : Nat) :
    (single start shape inside).marks depth =
      ⟨start, depth, shape.isProperty⟩ :: inside.marks depth := by
  simp [single, marks]

@[simp]
theorem marks_within (segments : List String) (inside : Outline) (depth : Nat) :
    (within segments inside .nil).marks depth = inside.marks depth := by
  simp [marks]

@[simp]
theorem marks_inFunction (inside : Outline) (depth : Nat) :
    (inFunction inside).marks depth = inside.marks (depth + 1) := by
  simp [inFunction, marks]

@[simp]
theorem marks_contained (container : Option String) (inside : Outline) (depth : Nat) :
    (contained container inside).marks depth = inside.marks depth := by
  cases container <;> simp [contained]

end Outline

/-! ### Marks in a stretch -/

/-- Marks lie in the stretch of a source between two offsets, inside a number of functions. -/
structure Fit (source : List Char) (depth low high : Nat) (marks : List Mark) : Prop where
  placed : ∀ mark ∈ marks, mark.start.Of source
  low_le : ∀ mark ∈ marks, low ≤ mark.start.offset
  lt_high : ∀ mark ∈ marks, mark.start.offset < high
  /-- What starts with the stretch is in no further function. -/
  opening : ∀ mark ∈ marks, mark.start.offset = low → mark.depth = depth
  level : ∀ mark ∈ marks, ∀ other ∈ marks, mark.start.offset = other.start.offset →
    mark.depth = other.depth
  distinct : ((marks.filter Mark.isProperty).map (fun mark => mark.start.offset)).Nodup

namespace Fit

variable {source : List Char} {depth low middle high : Nat} {marks later : List Mark}

theorem nil : Fit source depth low high [] where
  placed := by simp
  low_le := by simp
  lt_high := by simp
  opening := by simp
  level := by simp
  distinct := by simp

theorem append (fit : Fit source depth low middle marks) (next : Fit source depth middle high later)
    (ordered : low ≤ middle) (orderedLater : middle ≤ high) :
    Fit source depth low high (marks ++ later) := by
  have apart : ∀ mark ∈ marks, ∀ other ∈ later, mark.start.offset < other.start.offset :=
    fun mark member other otherMember =>
      Nat.lt_of_lt_of_le (fit.lt_high mark member) (next.low_le other otherMember)
  refine ⟨?_, ?_, ?_, ?_, ?_, ?_⟩
  · intro mark member
    rcases List.mem_append.mp member with early | late
    · exact fit.placed mark early
    · exact next.placed mark late
  · intro mark member
    rcases List.mem_append.mp member with early | late
    · exact fit.low_le mark early
    · exact Nat.le_trans ordered (next.low_le mark late)
  · intro mark member
    rcases List.mem_append.mp member with early | late
    · exact Nat.lt_of_lt_of_le (fit.lt_high mark early) orderedLater
    · exact next.lt_high mark late
  · intro mark member starts
    rcases List.mem_append.mp member with early | late
    · exact fit.opening mark early starts
    · exact next.opening mark late (Nat.le_antisymm (starts ▸ ordered) (next.low_le mark late))
  · intro mark member other otherMember same
    rcases List.mem_append.mp member with early | late <;>
      rcases List.mem_append.mp otherMember with otherEarly | otherLate
    · exact fit.level mark early other otherEarly same
    · exact absurd same (Nat.ne_of_lt (apart mark early other otherLate))
    · exact absurd same (Nat.ne_of_gt (apart other otherEarly mark late))
    · exact next.level mark late other otherLate same
  · rw [List.filter_append, List.map_append]
    refine List.nodup_append.mpr ⟨fit.distinct, next.distinct, ?_⟩
    intro offset early other late
    obtain ⟨mark, member, rfl⟩ := List.mem_map.mp early
    obtain ⟨laterMark, laterMember, rfl⟩ := List.mem_map.mp late
    exact Nat.ne_of_lt (apart mark (List.mem_of_mem_filter member) laterMark
      (List.mem_of_mem_filter laterMember))

theorem perm (fit : Fit source depth low high marks) (same : marks.Perm later) :
    Fit source depth low high later where
  placed mark member := fit.placed mark (same.mem_iff.mpr member)
  low_le mark member := fit.low_le mark (same.mem_iff.mpr member)
  lt_high mark member := fit.lt_high mark (same.mem_iff.mpr member)
  opening mark member := fit.opening mark (same.mem_iff.mpr member)
  level mark member other otherMember :=
    fit.level mark (same.mem_iff.mpr member) other (same.mem_iff.mpr otherMember)
  distinct := ((same.filter _).map _).nodup_iff.mp fit.distinct

/-- Marks lie in every larger stretch. -/
theorem mono {lower higher : Nat} (fit : Fit source depth low high marks) (below : lower ≤ low)
    (above : high ≤ higher) : Fit source depth lower higher marks where
  placed := fit.placed
  low_le mark member := Nat.le_trans below (fit.low_le mark member)
  lt_high mark member := Nat.lt_of_lt_of_le (fit.lt_high mark member) above
  opening mark member starts :=
    fit.opening mark member (Nat.le_antisymm (starts ▸ below) (fit.low_le mark member))
  level := fit.level
  distinct := fit.distinct

/-- Marks in further functions lie in a stretch that starts before them. -/
theorem inner {outer : Nat} (fit : Fit source depth (low + 1) high marks) :
    Fit source outer low high marks where
  placed := fit.placed
  low_le mark member := Nat.le_of_succ_le (fit.low_le mark member)
  lt_high := fit.lt_high
  opening mark member starts :=
    absurd starts (Nat.ne_of_gt (fit.low_le mark member))
  level := fit.level
  distinct := fit.distinct

/-- A mark in front of others may start with the stretch, if no two properties do. -/
theorem cons {mark : Mark} (fit : Fit source depth low high marks) (placed : mark.start.Of source)
    (starts : mark.start.offset = low) (level : mark.depth = depth) (ordered : low < high)
    (apart : mark.isProperty = true → ∀ other ∈ marks, other.start.offset ≠ low) :
    Fit source depth low high (mark :: marks) := by
  have opens : ∀ other ∈ mark :: marks, other.start.offset = low → other.depth = depth := by
    intro other member otherStarts
    rcases List.mem_cons.mp member with rfl | inside
    · exact level
    · exact fit.opening other inside otherStarts
  refine ⟨?_, ?_, ?_, opens, ?_, ?_⟩
  · exact List.forall_mem_cons.mpr ⟨placed, fit.placed⟩
  · exact List.forall_mem_cons.mpr ⟨Nat.le_of_eq starts.symm, fit.low_le⟩
  · exact List.forall_mem_cons.mpr ⟨starts ▸ ordered, fit.lt_high⟩
  · intro first member second otherMember same
    rcases List.mem_cons.mp member with rfl | inside <;>
      rcases List.mem_cons.mp otherMember with rfl | otherInside
    · rfl
    · rw [level, fit.opening second otherInside (same.symm.trans starts)]
    · rw [level, fit.opening first inside (same.trans starts)]
    · exact fit.level first inside second otherInside same
  · cases property : mark.isProperty with
    | false =>
      rw [List.filter_cons_of_neg (by simp [property])]
      exact fit.distinct
    | true =>
      rw [List.filter_cons_of_pos property, List.map_cons, List.nodup_cons, starts]
      refine ⟨fun found => ?_, fit.distinct⟩
      obtain ⟨other, member, same⟩ := List.mem_map.mp found
      exact apart property other (List.mem_of_mem_filter member) same

theorem tail {mark : Mark} (fit : Fit source depth low high (mark :: marks)) :
    Fit source depth low high marks where
  placed other member := fit.placed other (List.mem_cons_of_mem mark member)
  low_le other member := fit.low_le other (List.mem_cons_of_mem mark member)
  lt_high other member := fit.lt_high other (List.mem_cons_of_mem mark member)
  opening other member := fit.opening other (List.mem_cons_of_mem mark member)
  level first member second otherMember :=
    fit.level first (List.mem_cons_of_mem mark member) second
      (List.mem_cons_of_mem mark otherMember)
  distinct := fit.distinct.sublist (((List.sublist_cons_self mark marks).filter _).map _)

/-- A mark that is no property may be there twice. -/
theorem again {mark : Mark} (fit : Fit source depth low high marks) (member : mark ∈ marks)
    (plain : mark.isProperty = false) : Fit source depth low high (mark :: marks) where
  placed := List.forall_mem_cons.mpr ⟨fit.placed mark member, fit.placed⟩
  low_le := List.forall_mem_cons.mpr ⟨fit.low_le mark member, fit.low_le⟩
  lt_high := List.forall_mem_cons.mpr ⟨fit.lt_high mark member, fit.lt_high⟩
  opening := List.forall_mem_cons.mpr ⟨fit.opening mark member, fit.opening⟩
  level := by
    have known : ∀ other ∈ mark :: marks, other ∈ marks :=
      List.forall_mem_cons.mpr ⟨member, fun _ => id⟩
    intro first firstMember second secondMember
    exact fit.level first (known first firstMember) second (known second secondMember)
  distinct := by
    rw [List.filter_cons_of_neg (by simp [plain])]
    exact fit.distinct

end Fit

/-! ### Outlines in a stretch -/

/-- An outline lies in the stretch of a source between two offsets. -/
structure Spans (source : List Char) (low high : Nat) (outline : Outline) : Prop where
  ordered : low ≤ high
  fit : ∀ depth, Fit source depth low high (outline.marks depth)

namespace Spans

open Outline

variable {source : List Char} {low middle high : Nat} {outline later : Outline}

theorem nil (ordered : low ≤ high) : Spans source low high .nil :=
  ⟨ordered, fun _ => .nil⟩

theorem congr (spans : Spans source low high outline)
    (same : ∀ depth, later.marks depth = outline.marks depth) : Spans source low high later :=
  ⟨spans.ordered, fun depth => same depth ▸ spans.fit depth⟩

theorem append (spans : Spans source low middle outline)
    (next : Spans source middle high later) : Spans source low high (outline ++ later) := by
  refine ⟨Nat.le_trans spans.ordered next.ordered, fun depth => ?_⟩
  rw [marks_append]
  exact (spans.fit depth).append (next.fit depth) spans.ordered next.ordered

/-- What comes later in the source may be visited first. -/
theorem swap (spans : Spans source low middle outline)
    (next : Spans source middle high later) : Spans source low high (later ++ outline) := by
  refine ⟨Nat.le_trans spans.ordered next.ordered, fun depth => ?_⟩
  have joined := (spans.append next).fit depth
  rw [marks_append] at joined ⊢
  exact joined.perm List.perm_append_comm

theorem mono {lower higher : Nat} (spans : Spans source low high outline) (below : lower ≤ low)
    (above : high ≤ higher) : Spans source lower higher outline :=
  ⟨Nat.le_trans below (Nat.le_trans spans.ordered above),
    fun depth => (spans.fit depth).mono below above⟩

theorem inFunction (spans : Spans source (low + 1) high outline) :
    Spans source low high (inFunction outline) := by
  refine ⟨Nat.le_of_succ_le spans.ordered, fun depth => ?_⟩
  rw [marks_inFunction]
  exact (spans.fit (depth + 1)).inner

theorem within (spans : Spans source low high outline) (segments : List String) :
    Spans source low high (.within segments outline .nil) :=
  spans.congr fun depth => marks_within segments outline depth

theorem contained (spans : Spans source low high outline) (container : Option String) :
    Spans source low high (contained container outline) :=
  spans.congr fun depth => marks_contained container outline depth

/-- A site that is no property may start with what is inside it. -/
theorem single {start : Position} {shape : Shape} (spans : Spans source low high outline)
    (placed : start.Of source) (starts : start.offset = low) (ordered : low < high)
    (plain : shape.isProperty = false) : Spans source low high (single start shape outline) := by
  refine ⟨spans.ordered, fun depth => ?_⟩
  rw [marks_single]
  refine (spans.fit depth).cons placed starts rfl ordered fun property => ?_
  exact absurd property (by simp [plain])

/-- An outline without its first site. -/
theorem tail (spans : Spans source low high outline)
    (opens : ∀ depth, ∃ mark, outline.marks depth = mark :: later.marks depth) :
    Spans source low high later := by
  refine ⟨spans.ordered, fun depth => ?_⟩
  obtain ⟨mark, marks⟩ := opens depth
  have fit := spans.fit depth
  rw [marks] at fit
  exact fit.tail

/-- A site that is no property may start with one inside it. -/
theorem again {start : Position} {shape : Shape} (spans : Spans source low high outline)
    (inside : ∀ depth, ⟨start, depth, false⟩ ∈ outline.marks depth)
    (plain : shape.isProperty = false) :
    Spans source low high (Outline.single start shape outline) := by
  refine ⟨spans.ordered, fun depth => ?_⟩
  rw [marks_single, plain]
  exact (spans.fit depth).again (inside depth) rfl

/-- Any site may start before what is inside it. -/
theorem single_of_lt {start : Position} {shape : Shape}
    (spans : Spans source (low + 1) high outline) (placed : start.Of source)
    (starts : start.offset = low) : Spans source low high (Outline.single start shape outline) := by
  have ordered : low < high := spans.ordered
  refine ⟨Nat.le_of_lt ordered, fun depth => ?_⟩
  rw [marks_single]
  refine ((spans.fit depth).inner).cons placed starts rfl ordered fun _ other member => ?_
  exact Nat.ne_of_gt ((spans.fit depth).low_le other member)

/-- A function may start before its parameters and its body. -/
theorem single_inFunction {start : Position} {shape : Shape}
    (spans : Spans source (low + 1) high outline) (placed : start.Of source)
    (starts : start.offset = low) :
    Spans source low high (Outline.single start shape (Outline.inFunction outline)) := by
  have ordered : low < high := spans.ordered
  refine ⟨Nat.le_of_lt ordered, fun depth => ?_⟩
  rw [marks_single, marks_inFunction]
  refine (spans.fit (depth + 1)).inner.cons placed starts rfl ordered fun _ other member => ?_
  exact Nat.ne_of_gt ((spans.fit (depth + 1)).low_le other member)

end Spans

end DocEntities
