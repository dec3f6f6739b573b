/-
This file shows that the items of a program are documented independently of one another. Behind
any outline a walk has the scope it had before, and no record is pending that was not pending
before, since every site drops the records it has left. So all that leads from one part of a
program to the next are the claimed lines, and they make a difference only to a part that starts
something on one of them.

What is found in a program is therefore what is found in its first items, followed by what is
found in the others, and the table is the one that merging the two tables gives.
-/

import DocEntities.Proofs.Merging
import DocEntities.Proofs.Run

namespace DocEntities

/-! ### Outlines one after the other -/

namespace Outline

theorem append_assoc (first second third : Outline) :
    (first ++ second) ++ third = first ++ (second ++ third) := by
  induction first with
  | nil => rfl
  | site start shape inside after _ inductionHypothesis =>
    exact congrArg (site start shape inside) inductionHypothesis
  | within segments inside after _ inductionHypothesis =>
    exact congrArg (within segments inside) inductionHypothesis
  | function inside after _ inductionHypothesis =>
    exact congrArg (function inside) inductionHypothesis

theorem ofItems_append (items later : List Script.Item) :
    ofItems (items ++ later) = ofItems items ++ ofItems later := by
  induction items with
  | nil => rfl
  | cons item items inductionHypothesis =>
    rw [List.cons_append, ofItems, inductionHypothesis, ofItems, append_assoc]

end Outline

namespace Walk

variable (around : Surroundings)

theorem along_append (first second : Outline) (walk : Walk) :
    along around (first ++ second) walk = along around second (along around first walk) := by
  induction first generalizing walk with
  | nil => rfl
  | site start shape inside after _ inductionHypothesis => exact inductionHypothesis _
  | within segments inside after _ inductionHypothesis => exact inductionHypothesis _
  | function inside after _ inductionHypothesis => exact inductionHypothesis _

/-- Behind a site and its inside, the records that the site has left are dropped. -/
theorem along_site (start : Script.Position) (shape : Shape) (inside after : Outline)
    (walk : Walk) :
    along around (.site start shape inside after) walk =
      along around after
        { along around inside (walk.document around start shape).1 with
          pending := dropRecords (walk.document around start shape).2
            (along around inside (walk.document around start shape).1).pending } :=
  rfl

/-! ### What a walk gives back -/

/-- Containers and functions are left as they were entered. -/
theorem scope_along (outline : Outline) (walk : Walk) :
    (along around outline walk).scope = walk.scope := by
  induction outline generalizing walk with
  | nil => rfl
  | site start shape inside after insideHypothesis afterHypothesis =>
    rw [along, afterHypothesis]
    exact (insideHypothesis _).trans (scope_document around start shape walk)
  | within segments inside after insideHypothesis afterHypothesis =>
    rw [along, afterHypothesis]
    show (along around inside _).scope.pop segments.length = walk.scope
    rw [insideHypothesis]
    exact Scope.pop_push walk.scope segments
  | function inside after insideHypothesis afterHypothesis =>
    rw [along, afterHypothesis]
    show (along around inside _).scope.exit = walk.scope
    rw [insideHypothesis]
    exact Scope.exit_enter walk.scope

theorem along_within (segments : List String) (inside after : Outline) (walk : Walk) :
    along around (.within segments inside after) walk =
      along around after
        { along around inside { walk with scope := walk.scope.push segments } with
          scope := walk.scope } := by
  rw [along, scope_along]
  simp only [Scope.pop_push]

theorem along_function (inside after : Outline) (walk : Walk) :
    along around (.function inside after) walk =
      along around after
        { along around inside { walk with scope := walk.scope.enter } with
          scope := walk.scope } := by
  rw [along, scope_along, Scope.exit_enter]

variable {around}

/-- A site leaves records for the offsets that it gives. -/
theorem mem_pending_of_document {start : Script.Position} {shape : Shape} {walk : Walk}
    {entry : Nat × Evidence} (member : entry ∈ (walk.document around start shape).1.pending) :
    entry ∈ walk.pending ∨ entry.1 ∈ (walk.document around start shape).2 := by
  cases found : walk.doc? around start.line with
  | none =>
    rw [document_of_none found] at member
    exact Or.inl member
  | some doc =>
    rw [document_of_some found] at member ⊢
    rcases mem_foldl_leaveRecord (List.mem_of_mem_filter member) with left | before
    · exact Or.inr (List.mem_map_of_mem left)
    · exact Or.inl before

/-- Behind an outline nothing is pending that was not pending before it. -/
theorem mem_pending_of_along {outline : Outline} {walk : Walk} {entry : Nat × Evidence}
    (member : entry ∈ (along around outline walk).pending) : entry ∈ walk.pending := by
  induction outline generalizing walk with
  | nil => exact member
  | site start shape inside after insideHypothesis afterHypothesis =>
    rw [along_site] at member
    -- What the site has left for its inside is dropped again behind the inside.
    obtain ⟨walked, kept⟩ := List.mem_filter.mp (afterHypothesis member)
    rcases mem_pending_of_document (insideHypothesis walked) with before | left
    · exact before
    · simp [left] at kept
  | within segments inside after insideHypothesis afterHypothesis =>
    have walked := afterHypothesis member
    exact @insideHypothesis { walk with scope := walk.scope.push segments } walked
  | function inside after insideHypothesis afterHypothesis =>
    have walked := afterHypothesis member
    exact @insideHypothesis { walk with scope := walk.scope.enter } walked

/-! ### A walk behind another one -/

/-- The state of a walk that another one has gone before: the lines that the earlier one has
claimed are claimed, and what it has found comes first. -/
def behind (earlier walk : Walk) : Walk :=
  { walk with
    claimed := walk.claimed ++ earlier.claimed
    findings := earlier.findings ++ walk.findings }

/-- A walk that has given back its scope and its records goes on as a new walk behind it. -/
theorem behind_start {walk : Walk} (scope : walk.scope = .outermost) (pending : walk.pending = []) :
    behind walk {} = walk := by
  obtain ⟨scope, claimed, pending, findings⟩ := walk
  subst scope pending
  simp [behind, Scope.outermost]

variable {earlier : Walk}

theorem doc?_behind {line : Nat}
    (apart : (around.comments.preceding? line).isSome → line ∉ earlier.claimed) (walk : Walk) :
    (behind earlier walk).doc? around line = walk.doc? around line := by
  refine Option.ext fun doc => ?_
  rw [doc?_eq_some_iff, doc?_eq_some_iff, behind, List.mem_append, not_or]
  constructor
  · rintro ⟨⟨unclaimed, -⟩, documented⟩
    exact ⟨unclaimed, documented⟩
  · rintro ⟨unclaimed, documented⟩
    exact ⟨⟨unclaimed, apart (Option.isSome_of_mem documented)⟩, documented⟩

theorem attach_behind (walk : Walk) (site : Site) (doc : DocComment) :
    (behind earlier walk).attach around site doc =
      behind earlier (walk.attach around site doc) := by
  simp only [attach, behind, attachment, List.append_assoc, List.cons_append]

/-- A site is documented as if nothing had gone before, unless its line was claimed. -/
theorem document_behind {start : Script.Position}
    (apart : (around.comments.preceding? start.line).isSome → start.line ∉ earlier.claimed)
    (shape : Shape) (walk : Walk) :
    (behind earlier walk).document around start shape =
      (behind earlier (walk.document around start shape).1,
        (walk.document around start shape).2) := by
  cases found : walk.doc? around start.line with
  | none =>
    have stillNone : (behind earlier walk).doc? around start.line = none :=
      (doc?_behind apart walk).trans found
    rw [document_of_none stillNone, document_of_none found]
  | some doc =>
    have stillFound : (behind earlier walk).doc? around start.line = some doc :=
      (doc?_behind apart walk).trans found
    rw [document_of_some stillFound, document_of_some found]
    exact Prod.ext (attach_behind walk ⟨walk.scope, start, shape⟩ doc) rfl

/-- A walk goes along an outline as if nothing had gone before, if the earlier walk has claimed
no documented line on which a site of the outline starts. -/
theorem along_behind {outline : Outline} {walk : Walk} {scope : Scope}
    (standing : walk.scope = scope)
    (apart : ∀ site ∈ outline.sites scope,
      (around.comments.preceding? site.line).isSome → site.line ∉ earlier.claimed) :
    along around outline (behind earlier walk) = behind earlier (along around outline walk) := by
  induction outline generalizing walk scope with
  | nil => rfl
  | site start shape inside after insideHypothesis afterHypothesis =>
    obtain ⟨apartHere, apartRest⟩ := List.forall_mem_cons.mp apart
    obtain ⟨apartInside, apartAfter⟩ := List.forall_mem_append.mp apartRest
    have documented := @document_behind around earlier start apartHere shape walk
    have documentedScope := (scope_document around start shape walk).trans standing
    have walkedInside := insideHypothesis documentedScope apartInside
    have walkedScope := (scope_along around inside _).trans documentedScope
    have walkedAfter := @afterHypothesis
      { along around inside (walk.document around start shape).1 with
        pending := dropRecords (walk.document around start shape).2
          (along around inside (walk.document around start shape).1).pending } _ walkedScope
      apartAfter
    rw [along_site, along_site, documented, walkedInside, ← walkedAfter]
    rfl
  | within segments inside after insideHypothesis afterHypothesis =>
    obtain ⟨apartInside, apartAfter⟩ := List.forall_mem_append.mp apart
    subst standing
    have walkedInside := @insideHypothesis { walk with scope := walk.scope.push segments } _ rfl
      apartInside
    have walkedAfter := @afterHypothesis
      { along around inside { walk with scope := walk.scope.push segments } with
        scope := walk.scope } _ rfl apartAfter
    rw [along_within, along_within, ← walkedAfter]
    exact congrArg (fun walked : Walk => along around after { walked with scope := walk.scope })
      walkedInside
  | function inside after insideHypothesis afterHypothesis =>
    obtain ⟨apartInside, apartAfter⟩ := List.forall_mem_append.mp apart
    subst standing
    have walkedInside := @insideHypothesis { walk with scope := walk.scope.enter } _ rfl
      apartInside
    have walkedAfter := @afterHypothesis
      { along around inside { walk with scope := walk.scope.enter } with
        scope := walk.scope } _ rfl apartAfter
    rw [along_function, along_function, ← walkedAfter]
    exact congrArg (fun walked : Walk => along around after { walked with scope := walk.scope })
      walkedInside

end Walk

/-! ### A program cut in two -/

/-- No documented line has candidates of both programs that start on it. -/
def Script.Program.Apart (first second : Script.Program) (comments : List SourceComment) : Prop :=
  ∀ line, (∃ comment ∈ CommentIndex.docs comments, comment.endLine + 1 = line) →
    ¬(first.StartsOn line ∧ second.StartsOn line)

/-- Behind all items of a program no container or function is open, and no record is pending. -/
theorem Walk.settled_through (parsed : Script.Parsed) (options : Options) :
    (through parsed options).scope = .outermost ∧ (through parsed options).pending = [] := by
  refine ⟨scope_along _ _ _, List.eq_nil_iff_forall_not_mem.mpr fun entry member => ?_⟩
  exact List.not_mem_nil (mem_pending_of_along member)

section Cut

variable {items later : List Script.Item} {comments : List SourceComment}

/-- The walk through a program goes through the later items as a walk of their own, behind the
one through the first items. -/
theorem Walk.through_append (apart : Script.Program.Apart ⟨items⟩ ⟨later⟩ comments)
    (lines : List String) (options : Options) :
    through ⟨⟨items ++ later⟩, comments, lines⟩ options =
      behind (through ⟨⟨items⟩, comments, lines⟩ options)
        (through ⟨⟨later⟩, comments, lines⟩ options) := by
  obtain ⟨scope, pending⟩ := settled_through ⟨⟨items⟩, comments, lines⟩ options
  obtain ⟨attachments, stretch⟩ := attaches_through ⟨⟨items⟩, comments, lines⟩ options
  have unclaimed : ∀ site ∈ (Outline.ofItems later).sites .outermost,
      ((CommentIndex.collect comments).preceding? site.line).isSome →
        site.line ∉ (through ⟨⟨items⟩, comments, lines⟩ options).claimed := by
    intro site member documented claimed
    have commented := CommentIndex.preceding?_isSome_iff.mp documented
    have inLater : site ∈ (⟨later⟩ : Script.Program).candidates :=
      Outline.sites_ofProgram ⟨later⟩ ▸ member
    exact apart site.line commented
      ⟨(stretch.mem_claimed_iff.mp claimed).2, Script.Program.startsOn_iff.mpr ⟨site, inLater, rfl⟩⟩
  calc through ⟨⟨items ++ later⟩, comments, lines⟩ options
    _ = along (.ofParsed ⟨⟨items⟩, comments, lines⟩ options) (.ofItems later)
          (through ⟨⟨items⟩, comments, lines⟩ options) := by
      rw [through, Outline.ofProgram, Outline.ofItems_append, along_append]
      rfl
    _ = along (.ofParsed ⟨⟨items⟩, comments, lines⟩ options) (.ofItems later)
          (behind (through ⟨⟨items⟩, comments, lines⟩ options) {}) := by
      rw [behind_start scope pending]
    _ = behind (through ⟨⟨items⟩, comments, lines⟩ options)
          (through ⟨⟨later⟩, comments, lines⟩ options) :=
      along_behind rfl unclaimed

/-- If no documented line has candidates of both parts of a program, then the comments of the
program are those of the first part and behind them those of the second, each described as it is
where the part stands alone; the entries are those of the two tables merged. -/
theorem parts_documented_independently
    (apart : Script.Program.Apart ⟨items⟩ ⟨later⟩ comments)
    (lines : List String) (options : Options) :
    let whole : Script.Parsed := ⟨⟨items ++ later⟩, comments, lines⟩
    let first : Script.Parsed := ⟨⟨items⟩, comments, lines⟩
    let second : Script.Parsed := ⟨⟨later⟩, comments, lines⟩
    let table := Table.ofFindings (findingsOf whole options)
    let merged := (Table.ofFindings (findingsOf first options)).extend
      (Table.ofFindings (findingsOf second options))
    table.ids = merged.ids ∧ table.entries = merged.entries ∧
      findingsOf whole options = findingsOf first options ++ findingsOf second options ∧
      (Walk.through first options).scope = .outermost ∧
      (Walk.through first options).pending = [] := by
  intro whole first second table merged
  have findings : findingsOf whole options =
      findingsOf first options ++ findingsOf second options :=
    congrArg Walk.findings (Walk.through_append apart lines options)
  have collected : table.Collects ((findingsOf first options).filterMap Finding.entity? ++
      (findingsOf second options).filterMap Finding.entity?) := by
    rw [← List.filterMap_append, ← findings]
    exact .ofList _
  obtain ⟨ids, entries, -⟩ :=
    collected.same ((Table.Collects.ofList _).extend (Table.Collects.ofList _))
  exact ⟨ids, entries, findings, Walk.settled_through first options⟩

end Cut

/-- A documented class with a documented property, written with `extend`. -/
def classItem : Script.Item :=
  .statement (.expression ⟨6, 2⟩ (.assign ⟨6, 2⟩ (.name "a")
    (.call ⟨8, 2⟩ (.member ⟨8, 2⟩ (.name ⟨8, 2⟩ "B") (.plain extendMethod))
      [.expr (.object ⟨17, 2⟩ [.pair ⟨25, 4⟩ (.plain "m") (.compound ⟨27, 4⟩ [])])])))

/-- A name that stands on a line. -/
def nameItem (line : Nat) : Script.Item :=
  .statement (.expression ⟨37, line⟩ (.name ⟨37, line⟩ "b"))

/-- Comments on the first, the third and the fifth line. -/
def oddLineComments : List SourceComment :=
  [⟨true, ⟨0, 1⟩, 1, "*"⟩, ⟨true, ⟨19, 3⟩, 3, "*"⟩, ⟨true, ⟨31, 5⟩, 5, "*"⟩]

theorem collect_oddLineComments :
    CommentIndex.collect oddLineComments =
      ⟨[(2, ⟨"", 1, 1⟩), (4, ⟨"", 3, 3⟩), (6, ⟨"", 5, 5⟩)]⟩ := by
  rw [CommentIndex.collect_eq_insertionSort]
  decide

theorem lines_classItem :
    (⟨[classItem]⟩ : Script.Program).candidates.map Site.line = [2, 2, 2, 2, 2, 2, 4, 4] := by
  rw [← Outline.sites_ofProgram]
  decide

theorem lines_nameItem :
    (⟨[nameItem 6]⟩ : Script.Program).candidates.map Site.line = [6, 6] := by
  rw [← Outline.sites_ofProgram]
  decide

theorem parts_documented_independently_classItem :
    Script.Program.Apart ⟨[classItem]⟩ ⟨[nameItem 6]⟩ oddLineComments ∧
      ((Table.ofFindings (findingsOf ⟨⟨[classItem, nameItem 6]⟩, oddLineComments, []⟩ {})).ids =
        ["a", "a#m", "b"] ∧
      (Table.ofFindings (findingsOf ⟨⟨[classItem, nameItem 6]⟩, oddLineComments, []⟩ {})).entries =
        ((Table.ofFindings (findingsOf ⟨⟨[classItem]⟩, oddLineComments, []⟩ {})).extend
          (Table.ofFindings (findingsOf ⟨⟨[nameItem 6]⟩, oddLineComments, []⟩ {}))).entries) := by
  have apart : Script.Program.Apart ⟨[classItem]⟩ ⟨[nameItem 6]⟩ oddLineComments := by
    rintro line - ⟨inFirst, inSecond⟩
    obtain ⟨site, member, rfl⟩ := Script.Program.startsOn_iff.mp inFirst
    obtain ⟨other, otherMember, same⟩ := Script.Program.startsOn_iff.mp inSecond
    have early := lines_classItem ▸ List.mem_map_of_mem member
    have late := lines_nameItem ▸ List.mem_map_of_mem otherMember
    simp only [List.mem_cons, List.not_mem_nil, or_false, or_self] at early late
    omega
  obtain ⟨-, entries, -⟩ := parts_documented_independently apart [] {}
  have ids : (Table.ofFindings (findingsOf
      ⟨⟨[classItem, nameItem 6]⟩, oddLineComments, []⟩ {})).ids = ["a", "a#m", "b"] := by
    rw [findingsOf, Surroundings.ofParsed, collect_oddLineComments]
    decide
  exact ⟨apart, ids, entries⟩

/-- Of two items on one documented line, only the first one gets the comment. -/
example :
    (findingsOf ⟨⟨[nameItem 2]⟩, oddLineComments, []⟩ {}).length = 1 ∧
      (findingsOf ⟨⟨[nameItem 2, nameItem 2]⟩, oddLineComments, []⟩ {}).length = 1 := by
  rw [findingsOf, findingsOf, Surroundings.ofParsed, Surroundings.ofParsed,
    collect_oddLineComments]
  decide

end DocEntities
