/-
This file proves that a visit gives its context back, from whatever state it starts. Leaving
containers and functions never fails for want of them, since what is visited inside gives back
the scope as it was entered. That it never fails is said by a second, strict walk, which breaks
off where it would leave what it is not in; the two walks are one.

Of the records, those that a site leaves are dropped behind its inside. Of the claimed lines, none
is given back, and every attached comment claims one. So a visit changes nothing at all exactly if
no candidate below the node starts on a documented line that is not yet claimed.
-/

import DocEntities.Proofs.Composition

namespace DocEntities

open Script

/-! ### Leaving what was entered -/

namespace Scope

/-- Leaves the innermost `count` containers, if there are as many. -/
def pop? (scope : Scope) (count : Nat) : Option Scope :=
  if count ≤ scope.containers.length then some (scope.pop count) else none

/-- Leaves a function body, if there is one. -/
def exit? (scope : Scope) : Option Scope :=
  if 0 < scope.depth then some scope.exit else none

theorem pop?_push (scope : Scope) (segments : List String) :
    (scope.push segments).pop? segments.length = some scope := by
  have enough : segments.length ≤ (scope.push segments).containers.length := by
    rw [push, List.length_append]
    exact Nat.le_add_left _ _
  rw [pop?, if_pos enough, pop_push]

theorem exit?_enter (scope : Scope) : scope.enter.exit? = some scope := by
  have inside : 0 < scope.enter.depth := Nat.succ_pos scope.depth
  rw [exit?, if_pos inside, exit_enter]

end Scope

namespace Walk

/-- Walks along an outline, and breaks off where fewer containers or functions are open than are
left. -/
def alongStrictly (around : Surroundings) : Outline → Walk → Option Walk
  | .nil, walk => some walk
  | .site start shape inside after, walk => do
    let (documented, offsets) := walk.document around start shape
    let walked ← alongStrictly around inside documented
    alongStrictly around after { walked with pending := dropRecords offsets walked.pending }
  | .within segments inside after, walk => do
    let walked ← alongStrictly around inside { walk with scope := walk.scope.push segments }
    let outer ← walked.scope.pop? segments.length
    alongStrictly around after { walked with scope := outer }
  | .function inside after, walk => do
    let walked ← alongStrictly around inside { walk with scope := walk.scope.enter }
    let outer ← walked.scope.exit?
    alongStrictly around after { walked with scope := outer }

/-- A walk never leaves more containers or functions than are open. -/
theorem alongStrictly_eq_some (around : Surroundings) (outline : Outline) (walk : Walk) :
    alongStrictly around outline walk = some (along around outline walk) := by
  induction outline generalizing walk with
  | nil => rfl
  | site start shape inside after insideHypothesis afterHypothesis =>
    rw [alongStrictly, along_site]
    simp only [insideHypothesis, afterHypothesis, Option.bind_eq_bind, Option.bind_some]
  | within segments inside after insideHypothesis afterHypothesis =>
    have outer : (along around inside
        { walk with scope := walk.scope.push segments }).scope.pop? segments.length =
          some walk.scope := by
      rw [scope_along]
      exact Scope.pop?_push walk.scope segments
    rw [alongStrictly, along_within]
    simp only [insideHypothesis, afterHypothesis, outer, Option.bind_eq_bind, Option.bind_some]
  | function inside after insideHypothesis afterHypothesis =>
    have outer : (along around inside { walk with scope := walk.scope.enter }).scope.exit? =
        some walk.scope := by
      rw [scope_along]
      exact Scope.exit?_enter walk.scope
    rw [alongStrictly, along_function]
    simp only [insideHypothesis, afterHypothesis, outer, Option.bind_eq_bind, Option.bind_some]

variable {around : Surroundings} {walk : Walk} {scope : Scope} {outline : Outline}

theorem pending_along_subset : (along around outline walk).pending ⊆ walk.pending :=
  fun _ => mem_pending_of_along

/-! ### Visits that attach nothing -/

theorem dropRecords_nil (pending : List (Nat × Evidence)) : dropRecords [] pending = pending :=
  List.filter_eq_self.mpr fun _ _ => rfl

/-- Without a comment to attach, a walk comes out as it went in. -/
theorem along_of_undocumented (standing : walk.scope = scope)
    (undocumented : ∀ site ∈ outline.sites scope, walk.doc? around site.line = none) :
    along around outline walk = walk := by
  induction outline generalizing walk scope with
  | nil => rfl
  | site start shape inside after insideHypothesis afterHypothesis =>
    obtain ⟨here, rest⟩ := List.forall_mem_cons.mp undocumented
    obtain ⟨ofInside, ofAfter⟩ := List.forall_mem_append.mp rest
    rw [along_site, document_of_none here, insideHypothesis standing ofInside, dropRecords_nil]
    exact afterHypothesis standing ofAfter
  | within segments inside after insideHypothesis afterHypothesis =>
    subst standing
    obtain ⟨ofInside, ofAfter⟩ := List.forall_mem_append.mp undocumented
    have walkedInside := @insideHypothesis { walk with scope := walk.scope.push segments } _ rfl
      ofInside
    rw [along_within, walkedInside]
    exact afterHypothesis rfl ofAfter
  | function inside after insideHypothesis afterHypothesis =>
    subst standing
    obtain ⟨ofInside, ofAfter⟩ := List.forall_mem_append.mp undocumented
    have walkedInside := @insideHypothesis { walk with scope := walk.scope.enter } _ rfl ofInside
    rw [along_function, walkedInside]
    exact afterHypothesis rfl ofAfter

/-- A claimed line stays claimed. -/
theorem mem_claimed_document {start : Position} {shape : Shape} {line : Nat}
    (claimed : line ∈ walk.claimed) :
    line ∈ (walk.document around start shape).1.claimed := by
  cases found : walk.doc? around start.line with
  | none =>
    rw [document_of_none found]
    exact claimed
  | some doc =>
    rw [document_of_some found]
    exact List.mem_cons_of_mem _ claimed

theorem mem_claimed_along {line : Nat} (claimed : line ∈ walk.claimed) :
    line ∈ (along around outline walk).claimed := by
  induction outline generalizing walk with
  | nil => exact claimed
  | site start shape inside after insideHypothesis afterHypothesis =>
    exact afterHypothesis (insideHypothesis (mem_claimed_document claimed))
  | within segments inside after insideHypothesis afterHypothesis =>
    have entered : line ∈ { walk with scope := walk.scope.push segments }.claimed := claimed
    exact afterHypothesis (insideHypothesis entered)
  | function inside after insideHypothesis afterHypothesis =>
    have entered : line ∈ { walk with scope := walk.scope.enter }.claimed := claimed
    exact afterHypothesis (insideHypothesis entered)

/-- The line of a documented site is claimed, if not by this site then by an earlier one. -/
theorem mem_claimed_document_self {start : Position} {shape : Shape}
    (documented : around.comments.preceding? start.line ≠ none) :
    start.line ∈ (walk.document around start shape).1.claimed := by
  cases found : walk.doc? around start.line with
  | none =>
    exact mem_claimed_document ((doc?_eq_none_iff.mp found).resolve_right documented)
  | some doc =>
    rw [document_of_some found]
    exact List.mem_cons_self

/-- Behind an outline, every documented line with a site of it is claimed. -/
theorem mem_claimed_along_of_documented (standing : walk.scope = scope) {site : Site}
    (member : site ∈ outline.sites scope)
    (documented : around.comments.preceding? site.line ≠ none) :
    site.line ∈ (along around outline walk).claimed := by
  induction outline generalizing walk scope with
  | nil => cases member
  | site start shape inside after insideHypothesis afterHypothesis =>
    have documentedScope := (scope_document around start shape walk).trans standing
    rw [along_site]
    rcases List.mem_cons.mp member with rfl | member
    · exact mem_claimed_along (mem_claimed_along (mem_claimed_document_self documented))
    · rcases List.mem_append.mp member with ofInside | ofAfter
      · exact mem_claimed_along (insideHypothesis documentedScope ofInside)
      · exact afterHypothesis ((scope_along around inside _).trans documentedScope) ofAfter
  | within segments inside after insideHypothesis afterHypothesis =>
    subst standing
    rw [along_within]
    rcases List.mem_append.mp member with ofInside | ofAfter
    · exact mem_claimed_along (insideHypothesis rfl ofInside)
    · exact afterHypothesis rfl ofAfter
  | function inside after insideHypothesis afterHypothesis =>
    subst standing
    rw [along_function]
    rcases List.mem_append.mp member with ofInside | ofAfter
    · exact mem_claimed_along (insideHypothesis rfl ofInside)
    · exact afterHypothesis rfl ofAfter

/-- A walk comes out as it went in exactly if there is no comment to attach. -/
theorem along_eq_self_iff (outline : Outline) (walk : Walk) :
    along around outline walk = walk ↔
      ∀ site ∈ outline.sites walk.scope, walk.doc? around site.line = none := by
  constructor
  · intro unchanged site member
    refine doc?_eq_none_iff.mpr (or_iff_not_imp_right.mpr fun documented => ?_)
    have claimed := mem_claimed_along_of_documented rfl member documented
    rwa [unchanged] at claimed
  · exact along_of_undocumented rfl

end Walk

/-! ### Visits of nodes -/

/-- A place below a node, or the node itself, is a candidate that starts on a line. -/
def Place.StartsOn (place : Place) (line : Nat) : Prop :=
  ∃ other site, place.Reaches other ∧ other.site? = some site ∧ site.line = line

theorem Place.startsOn_iff {place : Place} {line : Nat} :
    place.StartsOn line ↔ ∃ site ∈ place.sites, site.line = line := by
  rw [sites_eq_traversal]
  constructor
  · rintro ⟨other, site, reaches, isSite, onLine⟩
    exact ⟨site, List.mem_filterMap.mpr ⟨other, mem_traversal_iff.mpr reaches, isSite⟩, onLine⟩
  · rintro ⟨site, member, onLine⟩
    obtain ⟨other, visited, isSite⟩ := List.mem_filterMap.mp member
    exact ⟨other, site, mem_traversal_iff.mp visited, isSite, onLine⟩

/-- Visits a node with everything below it. -/
def Walk.visit (around : Surroundings) (node : TreeNode) (walk : Walk) : Walk :=
  along around (.ofNode node) walk

/-- A visit changes nothing exactly if every documented line below the node is claimed. -/
theorem Walk.visit_eq_self_iff (around : Surroundings) (node : TreeNode) (walk : Walk) :
    walk.visit around node = walk ↔
      ∀ line, Place.StartsOn ⟨walk.scope, node⟩ line →
        line ∈ walk.claimed ∨ around.comments.preceding? line = none := by
  rw [visit, along_eq_self_iff]
  constructor
  · intro undocumented line startsOn
    obtain ⟨site, member, rfl⟩ := Place.startsOn_iff.mp startsOn
    exact doc?_eq_none_iff.mp (undocumented site member)
  · intro passed site member
    have startsOn : Place.StartsOn ⟨walk.scope, node⟩ site.line :=
      Place.startsOn_iff.mpr ⟨site, member, rfl⟩
    exact doc?_eq_none_iff.mpr (passed site.line startsOn)

/-- Visits a whole program. -/
def Walk.visitProgram (around : Surroundings) (program : Program) (walk : Walk) : Walk :=
  along around (.ofProgram program) walk

/-- A visit of any node, from any state, gives its context back: it never leaves more containers
or functions than are open, and behind it those are open that were open before; it leaves no
record behind that it has not found; and it changes nothing at all exactly if no candidate at or
below the node starts on a documented line that is not claimed. The same holds of the visit of a
whole program, behind which no record is pending if none was before. -/
theorem visits_restore_context (around : Surroundings) :
    (∀ (node : TreeNode) (walk : Walk),
      Walk.alongStrictly around (.ofNode node) walk = some (walk.visit around node) ∧
      (walk.visit around node).scope = walk.scope ∧
      (walk.visit around node).pending ⊆ walk.pending ∧
      (walk.visit around node = walk ↔
        ∀ line, Place.StartsOn ⟨walk.scope, node⟩ line →
          line ∈ walk.claimed ∨ around.comments.preceding? line = none)) ∧
    (∀ (program : Program) (walk : Walk),
      Walk.alongStrictly around (.ofProgram program) walk =
        some (walk.visitProgram around program) ∧
      (walk.visitProgram around program).scope = walk.scope ∧
      (walk.visitProgram around program).pending ⊆ walk.pending) ∧
    ∀ program : Program, (Walk.visitProgram around program {}).pending = [] := by
  refine ⟨fun node walk => ⟨?_, ?_, ?_, ?_⟩, fun program walk => ⟨?_, ?_, ?_⟩, fun program => ?_⟩
  · exact Walk.alongStrictly_eq_some around (.ofNode node) walk
  · exact Walk.scope_along around (.ofNode node) walk
  · exact Walk.pending_along_subset
  · exact Walk.visit_eq_self_iff around node walk
  · exact Walk.alongStrictly_eq_some around (.ofProgram program) walk
  · exact Walk.scope_along around (.ofProgram program) walk
  · exact Walk.pending_along_subset
  · exact List.eq_nil_of_subset_nil Walk.pending_along_subset

-- The declaration and its variable are both documented, and both leave a record for the property
-- behind them, whose own line has no comment.
example :
    let around : Surroundings :=
      ⟨⟨[(2, ⟨"A list.", 1, 1⟩), (4, ⟨"A set.", 3, 3⟩)]⟩, fun _ => "", {}⟩
    let object : Expr := .object ⟨40, 4⟩ [.pair ⟨42, 5⟩ (.plain (some "size")) (.this ⟨48, 5⟩)]
    let value : Expr := .call ⟨28, 4⟩
      (.member ⟨28, 4⟩ (.name ⟨28, 4⟩ "Base") (.plain (some "extend"))) [.expr object]
    let declaration : Statement := .declaration ⟨13, 2⟩ [.mk ⟨24, 4⟩ (.name "Set") (some value)]
    let documented := (Walk.document around declaration.start (.ofStatement declaration) {}).1
    let visited := Walk.visitProgram around ⟨[.statement declaration]⟩ {}
    documented.pending.map Prod.fst = [42] ∧ visited.claimed = [4, 2] ∧ visited.pending = [] := by
  decide

end DocEntities
