/-
This file follows the properties of the object that a call of `extend` is given. The shape of a
node tells the offsets at which they start, and a record for each of them is kept by offset
until the property is visited. So three things have to be known. The properties are among the
sites inside the node, outside any function that the node is outside of. No other node tells
the same offsets, save the nodes that tell all of them because they stand around the same value:
a declaration and its first variable, a statement and its expression. And the outline of a
program visits the properties before the node is left.

The first two rest on one case distinction: a node that tells such offsets holds the call as its
value, or takes its shape from a node right below it.
-/

import DocEntities.Proofs.Traversal
import Mathlib.Data.List.Nodup

namespace DocEntities

open Script

/-! ### The members that a shape tells -/

/-- The offsets of the properties that a value defines a class by. -/
def Value.memberOffsets : Value → List Nat
  | .extension _ members => members.map Prod.fst
  | _ => []

/-- What is held, if a shape tells of its holder. -/
def Shape.value : Shape → Value
  | .member _ _ value | .binding _ value | .property _ value | .classMember _ _ _ value => value
  | .other => .plain

def Shape.isProperty : Shape → Bool
  | .property _ _ => true
  | _ => false

namespace Site

def offset (site : Site) : Nat :=
  site.start.offset

/-- The offsets of the properties of the class that a site defines. -/
def memberOffsets (site : Site) : List Nat :=
  site.shape.value.memberOffsets

/-- Sites that tell the same, wherever they start. -/
def Agrees (site other : Site) : Prop :=
  site.scope = other.scope ∧ site.shape = other.shape

end Site

/-- The offsets of the properties among sites. -/
def propertyOffsets (sites : List Site) : List Nat :=
  (sites.filter (fun site => site.shape.isProperty)).map Site.offset

@[simp]
theorem propertyOffsets_append (sites later : List Site) :
    propertyOffsets (sites ++ later) = propertyOffsets sites ++ propertyOffsets later := by
  simp [propertyOffsets]

theorem propertyOffsets_cons {site : Site} (property : site.shape.isProperty = true)
    (sites : List Site) :
    propertyOffsets (site :: sites) = site.offset :: propertyOffsets sites := by
  simp [propertyOffsets, property]

theorem propertyOffsets_sublist {sites later : List Site} (sub : sites.Sublist later) :
    (propertyOffsets sites).Sublist (propertyOffsets later) :=
  (sub.filter _).map _

/-- Sites in as many functions as a scope. -/
def Scope.level (scope : Scope) (sites : List Site) : List Site :=
  sites.filter (fun site => site.scope.depth == scope.depth)

theorem Scope.level_sublist (scope : Scope) {sites later : List Site}
    (sub : sites.Sublist later) : (scope.level sites).Sublist (scope.level later) :=
  sub.filter _

@[simp]
theorem Scope.level_append (scope : Scope) (sites later : List Site) :
    scope.level (sites ++ later) = scope.level sites ++ scope.level later :=
  List.filter_append _ _

/-- Sites show the properties that another site tells of, as deep inside functions as it. -/
def Site.ShownIn (site : Site) (sites : List Site) : Prop :=
  site.memberOffsets.Sublist (propertyOffsets (site.scope.level sites))

namespace Site.ShownIn

variable {site other : Site} {sites later : List Site}

theorem mono (shown : site.ShownIn sites) (sub : sites.Sublist later) : site.ShownIn later :=
  shown.trans (propertyOffsets_sublist (site.scope.level_sublist sub))

theorem sublist (shown : site.ShownIn sites) :
    site.memberOffsets.Sublist (propertyOffsets sites) :=
  shown.trans (propertyOffsets_sublist List.filter_sublist)

/-- A member starts where some site starts that is as deep inside functions. -/
theorem exists_site (shown : site.ShownIn sites) {offset : Nat}
    (member : offset ∈ site.memberOffsets) :
    ∃ found ∈ sites, found.offset = offset ∧ found.scope.depth = site.scope.depth := by
  obtain ⟨found, property, rfl⟩ := List.mem_map.mp (shown.subset member)
  obtain ⟨inSites, level⟩ := List.mem_filter.mp (List.mem_filter.mp property).1
  exact ⟨found, inSites, rfl, beq_iff_eq.mp level⟩

theorem congr (shown : site.ShownIn sites) (members : other.memberOffsets = site.memberOffsets)
    (depth : other.scope.depth = site.scope.depth) : other.ShownIn sites := by
  unfold ShownIn Scope.level at shown ⊢
  rwa [members, depth]

end Site.ShownIn

theorem Place.sites_sublist_below {place child : Place} (member : child ∈ place.below) :
    child.sites.Sublist (place.below.flatMap Place.sites) := by
  rw [List.flatMap_def]
  exact List.sublist_flatten_of_mem (List.mem_map_of_mem member)

/-! ### The object of a call of `extend` -/

namespace Place

theorem sites_paren (scope : Scope) (start : Position) (inner : Expr) :
    sites ⟨scope, .expr (.paren start inner)⟩ =
      ⟨scope, start, .other⟩ :: sites ⟨scope, .expr inner⟩ := by
  rw [sites_eq]
  simp [site?, TreeNode.start?, TreeNode.shape, Expr.start, Shape.ofExpr, below, belowExpr,
    Scope.places]

/-- Parentheses only add sites that tell nothing. -/
theorem sites_unparen (scope : Scope) (expr : Expr) :
    ∃ around : List Site, (∀ site ∈ around, site.shape = .other) ∧
      sites ⟨scope, .expr expr⟩ = around ++ sites ⟨scope, .expr expr.unparen⟩ := by
  fun_induction Expr.unparen expr with
  | case1 start inner inductionHypothesis =>
    obtain ⟨around, other, equal⟩ := inductionHypothesis
    refine ⟨⟨scope, start, .other⟩ :: around, ?_, ?_⟩
    · intro site member
      rcases List.mem_cons.mp member with rfl | inside
      · rfl
      · exact other site inside
    · rw [sites_paren, equal, List.cons_append]
  | case2 expr notParen => exact ⟨[], by simp, rfl⟩

theorem sites_object (scope : Scope) (start : Position) (entries : List Entry) :
    sites ⟨scope, .expr (.object start entries)⟩ =
      ⟨scope, start, .other⟩ :: scope.sitesOf (entries.map .entry) := by
  rw [sites_eq]
  simp [site?, TreeNode.start?, TreeNode.shape, Expr.start, Shape.ofExpr, below, belowExpr]

theorem sites_call (scope : Scope) (start : Position) (callee : Expr) (arguments : List Part) :
    sites ⟨scope, .expr (.call start callee arguments)⟩ =
      ⟨scope, start, .other⟩ ::
        (sites ⟨scope, .expr callee⟩ ++ scope.sitesOf (arguments.map .part)) := by
  rw [sites_eq]
  simp [site?, TreeNode.start?, TreeNode.shape, Expr.start, Shape.ofExpr, below, belowExpr]
  rfl

end Place

/-- A value whose members are told is a call of `extend` with an object as first argument. -/
theorem Value.exists_object_of_memberOffsets {value : Expr} {offset : Nat}
    (member : offset ∈ (Value.ofExpr value).memberOffsets) :
    ∃ start callee argument rest objectStart entries,
      value.unparen = .call start callee (.expr argument :: rest) ∧
      argument.unparen = .object objectStart entries ∧
      (Value.ofExpr value).memberOffsets = (entries.filterMap Entry.member?).map Prod.fst := by
  unfold Value.ofExpr at member ⊢
  split at member
  case h_4 start calleeStart object key arguments equal =>
    split at member
    · rename_i isExtend
      simp only [Value.memberOffsets, extensionMembers] at member
      split at member
      · rename_i argument rest
        split at member
        · rename_i objectStart entries inner
          refine ⟨start, _, argument, rest, objectStart, entries, equal, inner, ?_⟩
          simp [isExtend, Value.memberOffsets, extensionMembers, inner]
        · cases member
      · cases member
    · exact absurd member List.not_mem_nil
  all_goals exact absurd member List.not_mem_nil

/-- The sites of a value that defines a class by properties: those of the call before the
object, those of the entries, and those of further arguments. -/
theorem Place.exists_sites_of_memberOffsets {value : Expr} {offset : Nat}
    (member : offset ∈ (Value.ofExpr value).memberOffsets) (scope : Scope) :
    ∃ (outer inner : List Site) (callee : Expr) (entries : List Entry) (rest : List Part),
      (∀ site ∈ outer ++ inner, site.shape = .other) ∧
      (Value.ofExpr value).memberOffsets = (entries.filterMap Entry.member?).map Prod.fst ∧
      sites ⟨scope, .expr value⟩ =
        outer ++ (sites ⟨scope, .expr callee⟩ ++ (inner ++
          (scope.sitesOf (entries.map .entry) ++ scope.sitesOf (rest.map .part)))) := by
  obtain ⟨start, callee, argument, rest, objectStart, entries, call, object, members⟩ :=
    Value.exists_object_of_memberOffsets member
  obtain ⟨outer, outerOther, outerSites⟩ := sites_unparen scope value
  obtain ⟨inner, innerOther, innerSites⟩ := sites_unparen scope argument
  refine ⟨outer ++ [⟨scope, start, .other⟩], inner ++ [⟨scope, objectStart, .other⟩], callee,
    entries, rest, ?_, members, ?_⟩
  · intro site member
    simp only [List.mem_append, List.mem_singleton] at member
    rcases member with (found | rfl) | (found | rfl)
    · exact outerOther site found
    · rfl
    · exact innerOther site found
    · rfl
  · have arguments : scope.sitesOf ((Part.expr argument :: rest).map .part) =
        sites ⟨scope, .expr argument⟩ ++ scope.sitesOf (rest.map .part) := by
      rw [List.map_cons, Scope.sitesOf_cons]
      rfl
    rw [outerSites, call, sites_call, arguments, innerSites, object, sites_object]
    simp only [List.append_assoc, List.cons_append, List.nil_append]

/-! ### The node that holds a value -/

namespace Place

/-- The property that an entry is. -/
theorem exists_site_of_member? (scope : Scope) {entry : Entry} {offset : Nat} {name : String}
    (member : entry.member? = some (offset, name)) :
    ∃ site : Site, site? ⟨scope, .entry entry⟩ = some site ∧ site.scope = scope ∧
      site.offset = offset ∧ site.shape.isProperty = true := by
  cases entry with
  | spread expr => cases member
  | shorthand start word value =>
    cases member
    exact ⟨_, rfl, rfl, rfl, rfl⟩
  | _ =>
    obtain ⟨word, -, equal⟩ := Option.map_eq_some_iff.mp member
    cases equal
    exact ⟨_, rfl, rfl, rfl, rfl⟩

theorem sites_of_site? {place : Place} {site : Site} (found : place.site? = some site) :
    place.sites = site :: place.below.flatMap sites := by
  rw [sites_eq, found, Option.toList_some, List.singleton_append]

/-- The members of an object are properties among its sites, in no further function. -/
theorem memberOffsets_sublist_sitesOf (scope : Scope) (entries : List Entry) :
    ((entries.filterMap Entry.member?).map Prod.fst).Sublist
      (propertyOffsets (scope.level (scope.sitesOf (entries.map .entry)))) := by
  induction entries with
  | nil => exact List.Sublist.slnil
  | cons entry rest inductionHypothesis =>
    have split : scope.sitesOf ((entry :: rest).map .entry) =
        sites ⟨scope, .entry entry⟩ ++ scope.sitesOf (rest.map .entry) := rfl
    rw [split, Scope.level_append, propertyOffsets_append]
    cases member : entry.member? with
    | none =>
      rw [List.filterMap_cons_none member]
      exact inductionHypothesis.trans (List.sublist_append_right _ _)
    | some found =>
      obtain ⟨site, isSite, inScope, offset, property⟩ := exists_site_of_member? scope member
      have level : scope.level (sites ⟨scope, .entry entry⟩) =
          site :: scope.level (below ⟨scope, .entry entry⟩ |>.flatMap sites) := by
        rw [sites_of_site? isSite, Scope.level, List.filter_cons_of_pos (by simp [inScope])]
        rfl
      rw [List.filterMap_cons_some member, List.map_cons, level, propertyOffsets_cons property,
        offset, List.cons_append]
      exact (inductionHypothesis.trans (List.sublist_append_right _ _)).cons_cons _

/-- The members of a value are properties among its sites. -/
theorem memberOffsets_sublist_value (scope : Scope) (value : Expr) :
    (Value.ofExpr value).memberOffsets.Sublist
      (propertyOffsets (scope.level (sites ⟨scope, .expr value⟩))) := by
  rcases List.eq_nil_or_concat' (Value.ofExpr value).memberOffsets with none | ⟨front, offset, some⟩
  · rw [none]
    exact List.nil_sublist _
  · have member : offset ∈ (Value.ofExpr value).memberOffsets := by simp [some]
    obtain ⟨outer, inner, callee, entries, rest, -, members, equal⟩ :=
      exists_sites_of_memberOffsets member scope
    rw [members, equal]
    refine (memberOffsets_sublist_sitesOf scope entries).trans ?_
    refine propertyOffsets_sublist (scope.level_sublist ?_)
    refine List.sublist_append_of_sublist_right (List.sublist_append_of_sublist_right ?_)
    exact List.sublist_append_of_sublist_right (List.sublist_append_left _ _)

/-- A statement that tells of members takes its shape from a node right below. -/
theorem passes_statement (scope : Scope) {statement : Statement} {offset : Nat}
    (member : offset ∈ (Shape.ofStatement statement).value.memberOffsets) :
    ∃ child ∈ belowStatement scope statement, ∃ inner : Site, child.site? = some inner ∧
      inner.scope = scope ∧ inner.shape = .ofStatement statement := by
  cases statement with
  | expression start expr =>
    exact ⟨⟨scope, .expr expr⟩, List.mem_singleton_self _, _, rfl, rfl, rfl⟩
  | declaration start declarators =>
    cases declarators with
    | nil => cases member
    | cons declarator rest =>
      exact ⟨⟨scope, .declarator declarator⟩, List.mem_cons_self, _, rfl, rfl, rfl⟩
  | _ => cases member

/-- A site that tells of members holds the call as its value, or takes its shape from a node
right below. -/
theorem holds_or_passes {place : Place} {site : Site} (found : place.site? = some site)
    {offset : Nat} (member : offset ∈ site.memberOffsets) :
    (∃ child ∈ place.below, ∃ inner : Site, child.site? = some inner ∧ inner.Agrees site) ∨
    (∃ (scope : Scope) (value : Expr), ⟨scope, .expr value⟩ ∈ place.below ∧
      scope.depth = site.scope.depth ∧
      site.memberOffsets = (Value.ofExpr value).memberOffsets) := by
  obtain ⟨scope, node⟩ := place
  cases node with
  | item inner =>
    cases inner with
    | exported start declaration =>
      cases found
      obtain ⟨child, below, site, isSite, inScope, shape⟩ := passes_statement scope member
      exact Or.inl ⟨child, below, site, isSite, inScope, shape⟩
    | defaultFunction start name params body =>
      cases found
      cases name <;> cases member
    | defaultClass start name members base =>
      cases found
      cases name <;> cases member
    | other start parts => cases found; cases member
    | statement inner => cases found
  | statement inner =>
    cases found
    obtain ⟨child, below, site, isSite, inScope, shape⟩ := passes_statement scope member
    exact Or.inl ⟨child, below, site, isSite, inScope, shape⟩
  | declarator inner =>
    obtain ⟨start, target, value⟩ := inner
    cases found
    cases value with
    | none => cases target <;> cases member
    | some value =>
      refine Or.inr ⟨scope.inside (Outline.declaratorContainer target (some value)), value, ?_,
        rfl, ?_⟩
      · simp [below, belowDeclarator, Scope.places]
      · cases target <;> rfl
  | entry inner =>
    cases inner with
    | pair start key value =>
      cases found
      exact Or.inr ⟨scope.inside (Outline.pairContainer key value), value, by
        simp [below, belowEntry, Scope.places], rfl, rfl⟩
    | spread expr => cases found
    | _ => cases found; cases member
  | member inner =>
    cases inner with
    | field start key isStatic value =>
      cases found
      cases value with
      | none => cases member
      | some value =>
        exact Or.inr ⟨scope, value, by simp [below, belowMember, Scope.places], rfl, rfl⟩
    | _ => cases found; cases member
  | expr inner =>
    cases found
    cases inner with
    | assign start target value =>
      refine Or.inr ⟨scope.push (Outline.pathSegments target.targetPath?), value, ?_, rfl, ?_⟩
      · simp [below, belowExpr, Scope.places]
      · cases target with
        | expr assigned => cases assigned <;> first | rfl | cases member
        | name word => rfl
        | _ => cases member
    | _ => cases member
  | _ => cases found

/-! ### Members shown inside -/

/-- A site is shown in the sites below its node. -/
theorem shownIn_below {place : Place} {site : Site} (found : place.site? = some site) :
    site.ShownIn (place.below.flatMap sites) := by
  induction place using belowInduction generalizing site with
  | step place inductionHypothesis =>
    rcases List.eq_nil_or_concat' site.memberOffsets with none | ⟨front, offset, some⟩
    · rw [Site.ShownIn, none]
      exact List.nil_sublist _
    have member : offset ∈ site.memberOffsets := by simp [some]
    rcases holds_or_passes found member with
      ⟨child, below, inner, isSite, sameScope, sameShape⟩ | ⟨scope, value, below, depth, members⟩
    · have shown := inductionHypothesis child below isSite
      have members : site.memberOffsets = inner.memberOffsets := by
        rw [Site.memberOffsets, ← sameShape, Site.memberOffsets]
      have inChild : (child.below.flatMap sites).Sublist child.sites := by
        rw [sites_of_site? isSite]
        exact List.sublist_cons_self _ _
      refine (shown.mono (inChild.trans (sites_sublist_below below))).congr members ?_
      rw [sameScope]
    · rw [Site.ShownIn, members]
      refine (memberOffsets_sublist_value scope value).trans ?_
      have level : scope.level = site.scope.level := by
        funext sites
        rw [Scope.level, Scope.level, depth]
      rw [level]
      exact propertyOffsets_sublist (site.scope.level_sublist (sites_sublist_below below))

end Place

/-- What a site tells of is shown behind it. -/
def Foreseen : List Site → Prop
  | [] => True
  | site :: rest => site.ShownIn rest ∧ Foreseen rest

namespace Foreseen

variable {sites later : List Site}

theorem append (foreseen : Foreseen sites) (foreseenLater : Foreseen later) :
    Foreseen (sites ++ later) := by
  induction sites with
  | nil => exact foreseenLater
  | cons site rest inductionHypothesis =>
    exact ⟨foreseen.1.mono (List.sublist_append_left rest later), inductionHypothesis foreseen.2⟩

theorem of_other (other : ∀ site ∈ sites, site.shape = .other) : Foreseen sites := by
  induction sites with
  | nil => exact trivial
  | cons site rest inductionHypothesis =>
    refine ⟨?_, inductionHypothesis fun later member => other later (List.mem_cons_of_mem _ member)⟩
    rw [Site.ShownIn, Site.memberOffsets, other site List.mem_cons_self]
    exact List.nil_sublist _

theorem flatMap {places : List Place} (each : ∀ place ∈ places, Foreseen place.sites) :
    Foreseen (places.flatMap Place.sites) := by
  induction places with
  | nil => exact trivial
  | cons place rest inductionHypothesis =>
    rw [List.flatMap_cons]
    refine (each place List.mem_cons_self).append (inductionHypothesis fun other member => ?_)
    exact each other (List.mem_cons_of_mem _ member)

theorem shownIn (foreseen : Foreseen sites) {site : Site} (inside : site ∈ sites) :
    site.ShownIn sites := by
  induction sites with
  | nil => cases inside
  | cons first rest inductionHypothesis =>
    refine Site.ShownIn.mono ?_ (List.sublist_cons_self first rest)
    rcases List.mem_cons.mp inside with rfl | below
    · exact foreseen.1
    · exact inductionHypothesis foreseen.2 below

theorem mem (foreseen : Foreseen sites) {site : Site} (inside : site ∈ sites) {offset : Nat}
    (told : offset ∈ site.memberOffsets) : offset ∈ propertyOffsets sites :=
  (foreseen.shownIn inside).sublist.subset told

/-- No property comes before a site that tells of it, nor is it that site. -/
theorem pairwise (foreseen : Foreseen sites) (distinct : (propertyOffsets sites).Nodup) :
    (∀ site ∈ sites, site.shape.isProperty = true → site.offset ∉ site.memberOffsets) ∧
      sites.Pairwise fun earlier later =>
        earlier.shape.isProperty = true → earlier.offset ∉ later.memberOffsets := by
  induction sites with
  | nil => exact ⟨List.forall_mem_nil _, List.Pairwise.nil⟩
  | cons first rest inductionHypothesis =>
    have distinctRest :=
      distinct.sublist (propertyOffsets_sublist (List.sublist_cons_self first rest))
    obtain ⟨alone, pair⟩ := inductionHypothesis foreseen.2 distinctRest
    have new : first.shape.isProperty = true → first.offset ∉ propertyOffsets rest := by
      intro property
      rw [propertyOffsets_cons property] at distinct
      exact (List.nodup_cons.mp distinct).1
    refine ⟨?_, List.pairwise_cons.mpr ⟨?_, pair⟩⟩
    · intro site member
      rcases List.mem_cons.mp member with rfl | below
      · exact fun property told => new property (foreseen.1.sublist.subset told)
      · exact alone site below
    · exact fun later inside property told => new property (foreseen.2.mem inside told)

end Foreseen

theorem Place.foreseen (place : Place) : Foreseen place.sites := by
  induction place using belowInduction with
  | step place inductionHypothesis =>
    have below := Foreseen.flatMap inductionHypothesis
    cases found : place.site? with
    | none =>
      rw [sites_eq, found]
      exact below
    | some own =>
      rw [sites_of_site? found]
      exact ⟨shownIn_below found, below⟩

theorem foreseen_places (places : List Place) : Foreseen (places.flatMap Place.sites) :=
  Foreseen.flatMap fun place _ => place.foreseen

/-! ### Members told twice -/

/-- Two sites that tell of the same property tell the same. -/
def Agreeing (sites : List Site) : Prop :=
  ∀ site ∈ sites, ∀ other ∈ sites, ∀ offset ∈ site.memberOffsets, offset ∈ other.memberOffsets →
    site.Agrees other

/-- What is told by a site of a place is a property below the place. -/
theorem Place.mem_propertyOffsets_below {place : Place} {own site : Site}
    (found : place.site? = some own) (inside : site ∈ place.sites) {offset : Nat}
    (told : offset ∈ site.memberOffsets) :
    offset ∈ propertyOffsets (place.below.flatMap sites) := by
  rw [sites_of_site? found] at inside
  rcases List.mem_cons.mp inside with rfl | below
  · exact (shownIn_below found).sublist.subset told
  · exact (foreseen_places _).mem below told

/-- No site of the entries of an object tells of the entries. -/
theorem Place.not_mem_members_entries {scope : Scope} {entries : List Entry}
    (distinct : (propertyOffsets (scope.sitesOf (entries.map .entry))).Nodup) {site : Site}
    (inside : site ∈ scope.sitesOf (entries.map .entry)) {offset : Nat}
    (told : offset ∈ site.memberOffsets) :
    offset ∉ (entries.filterMap Entry.member?).map Prod.fst := by
  induction entries with
  | nil => cases inside
  | cons entry rest inductionHypothesis =>
    have split : scope.sitesOf ((entry :: rest).map .entry) =
        sites ⟨scope, .entry entry⟩ ++ scope.sitesOf (rest.map .entry) := rfl
    rw [split, propertyOffsets_append, List.nodup_append] at distinct
    obtain ⟨distinctHere, distinctRest, apart⟩ := distinct
    have later : offset ∈ (rest.filterMap Entry.member?).map Prod.fst →
        offset ∈ propertyOffsets (scope.sitesOf (rest.map .entry)) := fun member =>
      (propertyOffsets_sublist List.filter_sublist).subset
        ((memberOffsets_sublist_sitesOf scope rest).subset member)
    rw [split] at inside
    intro member
    cases named : entry.member? with
    | none =>
      rw [List.filterMap_cons_none named] at member
      rcases List.mem_append.mp inside with here | below
      · exact apart _ ((Place.foreseen _).mem here told) _ (later member) rfl
      · exact inductionHypothesis distinctRest below member
    | some found =>
      obtain ⟨own, isSite, -, starts, property⟩ := exists_site_of_member? scope named
      rw [sites_of_site? isSite, propertyOffsets_cons property, starts] at distinctHere apart
      rw [List.filterMap_cons_some named, List.map_cons] at member
      rcases List.mem_append.mp inside with here | below
      · have insideEntry := mem_propertyOffsets_below isSite here told
        rcases List.mem_cons.mp member with rfl | member
        · exact (List.nodup_cons.mp distinctHere).1 insideEntry
        · exact apart _ (List.mem_cons_of_mem _ insideEntry) _ (later member) rfl
      · rcases List.mem_cons.mp member with rfl | member
        · exact apart _ List.mem_cons_self _ ((foreseen_places _).mem below told) rfl
        · exact inductionHypothesis distinctRest below member

/-- No site of a value tells of the properties that the value is defined by. -/
theorem Place.not_mem_memberOffsets_value {scope : Scope} {value : Expr}
    (distinct : (propertyOffsets (sites ⟨scope, .expr value⟩)).Nodup) {site : Site}
    (inside : site ∈ sites ⟨scope, .expr value⟩) {offset : Nat}
    (told : offset ∈ site.memberOffsets) :
    offset ∉ (Value.ofExpr value).memberOffsets := by
  intro member
  obtain ⟨outer, inner, callee, entries, rest, other, members, equal⟩ :=
    exists_sites_of_memberOffsets member scope
  have toldFront : Foreseen (outer ++ (sites ⟨scope, .expr callee⟩ ++ inner)) := by
    refine (Foreseen.of_other fun site found => ?_).append ((Place.foreseen _).append
      (Foreseen.of_other fun site found => ?_))
    · exact other site (List.mem_append_left _ found)
    · exact other site (List.mem_append_right _ found)
  have regrouped : sites ⟨scope, .expr value⟩ =
      (outer ++ (sites ⟨scope, .expr callee⟩ ++ inner)) ++
        (scope.sitesOf (entries.map .entry) ++ scope.sitesOf (rest.map .part)) := by
    rw [equal]
    simp only [List.append_assoc]
  rw [members] at member
  have shown : offset ∈ propertyOffsets (scope.sitesOf (entries.map .entry)) :=
    (propertyOffsets_sublist List.filter_sublist).subset
      ((memberOffsets_sublist_sitesOf scope entries).subset member)
  -- What is told before the object or behind it is a property there, and not an entry.
  rw [regrouped, propertyOffsets_append, List.nodup_append] at distinct
  obtain ⟨-, distinctBack, apartFront⟩ := distinct
  rw [propertyOffsets_append] at distinctBack
  obtain ⟨distinctEntries, -, apartRest⟩ := List.nodup_append.mp distinctBack
  rw [regrouped] at inside
  rcases List.mem_append.mp inside with front | inside
  · refine apartFront _ (toldFront.mem front told) _ ?_ rfl
    rw [propertyOffsets_append]
    exact List.mem_append_left _ shown
  · rcases List.mem_append.mp inside with entry | back
    · exact not_mem_members_entries distinctEntries entry told member
    · exact apartRest _ shown _ ((foreseen_places _).mem back told) rfl

theorem agreeing_flatMap {places : List Place}
    (distinct : (propertyOffsets (places.flatMap Place.sites)).Nodup)
    (each : ∀ place ∈ places, (propertyOffsets place.sites).Nodup → Agreeing place.sites) :
    Agreeing (places.flatMap Place.sites) := by
  induction places with
  | nil => exact fun _ member => nomatch member
  | cons place rest inductionHypothesis =>
    rw [List.flatMap_cons] at distinct ⊢
    rw [propertyOffsets_append, List.nodup_append] at distinct
    obtain ⟨distinctHere, distinctRest, apart⟩ := distinct
    have here := each place List.mem_cons_self distinctHere
    have later := inductionHypothesis distinctRest fun other member =>
      each other (List.mem_cons_of_mem _ member)
    have toldHere := place.foreseen
    have toldRest := foreseen_places rest
    intro site siteMember other otherMember offset told toldToo
    rcases List.mem_append.mp siteMember with early | late <;>
      rcases List.mem_append.mp otherMember with otherEarly | otherLate
    · exact here site early other otherEarly offset told toldToo
    · exact absurd rfl (apart _ (toldHere.mem early told) _ (toldRest.mem otherLate toldToo))
    · exact absurd rfl (apart _ (toldHere.mem otherEarly toldToo) _ (toldRest.mem late told))
    · exact later site late other otherLate offset told toldToo

/-- A site below another one that tells of the same property tells the same. -/
theorem Place.agrees_of_mem_below {place : Place} {own : Site} (found : place.site? = some own)
    (distinct : (propertyOffsets (place.below.flatMap sites)).Nodup)
    (agreeing : Agreeing (place.below.flatMap sites)) {site : Site}
    (inside : site ∈ place.below.flatMap sites) {offset : Nat} (told : offset ∈ own.memberOffsets)
    (toldToo : offset ∈ site.memberOffsets) : own.Agrees site := by
  rcases holds_or_passes found told with
    ⟨child, below, inner, isSite, sameScope, sameShape⟩ | ⟨scope, value, below, depth, members⟩
  · have innerInside : inner ∈ place.below.flatMap sites := by
      refine List.mem_flatMap.mpr ⟨child, below, ?_⟩
      rw [sites_of_site? isSite]
      exact List.mem_cons_self
    have toldInner : offset ∈ inner.memberOffsets := by
      rwa [Site.memberOffsets, sameShape]
    have agrees := agreeing inner innerInside site inside offset toldInner toldToo
    exact ⟨sameScope.symm.trans agrees.1, sameShape.symm.trans agrees.2⟩
  · -- The value tells of its properties itself, so no site of it does, nor one beside it.
    rw [members] at told
    obtain ⟨front, back, split⟩ := List.append_of_mem below
    rw [split, List.flatMap_append, List.flatMap_cons] at distinct inside
    rw [propertyOffsets_append, List.nodup_append, propertyOffsets_append, List.nodup_append]
      at distinct
    obtain ⟨-, ⟨distinctValue, -, apartBack⟩, apartFront⟩ := distinct
    have shown : offset ∈ propertyOffsets (sites ⟨scope, .expr value⟩) :=
      (propertyOffsets_sublist List.filter_sublist).subset
        ((memberOffsets_sublist_value scope value).subset told)
    rcases List.mem_append.mp inside with early | inside
    · exact absurd rfl (apartFront _ ((foreseen_places _).mem early toldToo) _
        (List.mem_append_left _ shown))
    · rcases List.mem_append.mp inside with here | late
      · exact absurd told (not_mem_memberOffsets_value distinctValue here toldToo)
      · exact absurd rfl (apartBack _ shown _ ((foreseen_places _).mem late toldToo))

/-- The sites of a place agree on what they tell of. -/
theorem Place.agreeing (place : Place) (distinct : (propertyOffsets place.sites).Nodup) :
    Agreeing place.sites := by
  induction place using belowInduction with
  | step place inductionHypothesis =>
    have sub : (place.below.flatMap sites).Sublist place.sites := by
      rw [sites_eq]
      exact List.sublist_append_right _ _
    have distinctBelow := distinct.sublist (propertyOffsets_sublist sub)
    have below := agreeing_flatMap distinctBelow inductionHypothesis
    cases found : place.site? with
    | none =>
      rw [sites_eq, found]
      exact below
    | some own =>
      rw [sites_of_site? found]
      intro site siteMember other otherMember offset told toldToo
      rcases List.mem_cons.mp siteMember with rfl | inside <;>
        rcases List.mem_cons.mp otherMember with rfl | otherInside
      · exact ⟨rfl, rfl⟩
      · exact agrees_of_mem_below found distinctBelow below otherInside told toldToo
      · have agrees := agrees_of_mem_below found distinctBelow below inside toldToo told
        exact ⟨agrees.1.symm, agrees.2.symm⟩
      · exact below site inside other otherInside offset told toldToo

/-! ### Members in an outline -/

namespace Outline

/-- The members that a site of an outline tells of are visited inside the site. -/
def Foretold : Outline → Prop
  | .nil => True
  | .site _ shape inside after =>
    (∀ (scope : Scope), ∀ offset ∈ shape.value.memberOffsets,
      ∃ found ∈ inside.sites scope, found.offset = offset) ∧ inside.Foretold ∧ after.Foretold
  | .within _ inside after => inside.Foretold ∧ after.Foretold
  | .function inside after => inside.Foretold ∧ after.Foretold

@[simp]
theorem foretold_nil : Foretold .nil :=
  trivial

@[simp]
theorem foretold_append (first second : Outline) :
    (first ++ second).Foretold ↔ first.Foretold ∧ second.Foretold := by
  change (first.append second).Foretold ↔ _
  induction first with
  | nil => simp [append]
  | site start shape inside after _ inductionHypothesis =>
    simp only [append, Foretold, inductionHypothesis, and_assoc]
  | within segments inside after _ inductionHypothesis =>
    simp only [append, Foretold, inductionHypothesis, and_assoc]
  | function inside after _ inductionHypothesis =>
    simp only [append, Foretold, inductionHypothesis, and_assoc]

@[simp]
theorem foretold_within (segments : List String) (inside : Outline) :
    (within segments inside .nil).Foretold ↔ inside.Foretold := by
  simp [Foretold]

@[simp]
theorem foretold_inFunction (inside : Outline) :
    (inFunction inside).Foretold ↔ inside.Foretold := by
  simp [inFunction, Foretold]

@[simp]
theorem foretold_contained (container : Option String) (inside : Outline) :
    (contained container inside).Foretold ↔ inside.Foretold := by
  cases container <;> simp [contained]

theorem foretold_ofList {α : Type} (wrap : α → TreeNode) (outline : List α → Outline)
    (nil : outline [] = .nil)
    (cons : ∀ head rest, outline (head :: rest) = ofNode (wrap head) ++ outline rest)
    (values : List α) :
    (outline values).Foretold ↔ ∀ value ∈ values, (ofNode (wrap value)).Foretold := by
  induction values with
  | nil => simp [nil]
  | cons head rest inductionHypothesis => simp [cons, inductionHypothesis]

@[simp]
theorem foretold_ofPatterns (patterns : List Pattern) :
    (ofPatterns patterns).Foretold ↔ ∀ pattern ∈ patterns, (ofNode (.pattern pattern)).Foretold :=
  foretold_ofList .pattern ofPatterns rfl (fun _ _ => rfl) patterns

@[simp]
theorem foretold_ofEntries (entries : List Entry) :
    (ofEntries entries).Foretold ↔ ∀ entry ∈ entries, (ofNode (.entry entry)).Foretold :=
  foretold_ofList .entry ofEntries rfl (fun _ _ => rfl) entries

@[simp]
theorem foretold_ofMembers (members : List Script.Member) :
    (ofMembers members).Foretold ↔ ∀ member ∈ members, (ofNode (.member member)).Foretold :=
  foretold_ofList .member ofMembers rfl (fun _ _ => rfl) members

@[simp]
theorem foretold_ofDeclarators (declarators : List Declarator) :
    (ofDeclarators declarators).Foretold ↔
      ∀ declarator ∈ declarators, (ofNode (.declarator declarator)).Foretold :=
  foretold_ofList .declarator ofDeclarators rfl (fun _ _ => rfl) declarators

@[simp]
theorem foretold_ofStatements (statements : List Statement) :
    (ofStatements statements).Foretold ↔
      ∀ statement ∈ statements, (ofNode (.statement statement)).Foretold :=
  foretold_ofList .statement ofStatements rfl (fun _ _ => rfl) statements

@[simp]
theorem foretold_ofParts (parts : List Part) :
    (ofParts parts).Foretold ↔ ∀ part ∈ parts, (ofNode (.part part)).Foretold :=
  foretold_ofList .part ofParts rfl (fun _ _ => rfl) parts

@[simp]
theorem foretold_ofExpr? (expr : Option Expr) :
    (ofExpr? expr).Foretold ↔ ∀ found ∈ expr, (ofNode (.expr found)).Foretold := by
  cases expr <;> simp [ofExpr?, ofNode]

/-- A single site foretells what is told below its node. -/
theorem foretold_candidate {node : TreeNode} {start : Position} {shape : Shape} {inside : Outline}
    (outline : ofNode node = single start shape inside)
    (site : ∀ scope, Place.site? ⟨scope, node⟩ = some ⟨scope, start, shape⟩)
    (foretold : inside.Foretold) : (ofNode node).Foretold := by
  rw [outline]
  refine ⟨fun scope offset member => ?_, foretold, trivial⟩
  have sites : inside.sites scope = (Place.below ⟨scope, node⟩).flatMap Place.sites := by
    have whole := Place.sites_of_site? (site scope)
    rw [Place.sites, outline, sites_single] at whole
    exact (List.cons.inj whole).2
  rw [sites]
  obtain ⟨found, inside, starts, -⟩ := (Place.shownIn_below (site scope)).exists_site member
  exact ⟨found, inside, starts⟩

theorem foretold_ofTarget {scope : Scope} {target : Pattern}
    (below : ∀ child ∈ Place.belowTarget scope target, (ofNode child.node).Foretold) :
    (ofTarget target).Foretold := by
  revert below
  fun_cases Place.belowTarget scope target
  case case1 => exact fun _ => foretold_nil
  all_goals
    intro below
    simpa [ofTarget, Place.belowExpr, Scope.places, ofNode] using below

theorem foretold_ofDeclaration {scope : Scope} {declaration : Statement}
    (below : ∀ child ∈ Place.belowStatement scope declaration, (ofNode child.node).Foretold) :
    (ofDeclaration declaration).Foretold := by
  cases declaration <;>
    simpa [ofDeclaration, Place.belowStatement, Scope.places, functionNodes, classNodes, or_imp,
      forall_and, ofNode] using below

/-- The outline of a node foretells its members. -/
theorem foretold_ofNode (place : Place) : (ofNode place.node).Foretold := by
  induction place using Place.belowInduction with
  | step place below =>
    obtain ⟨scope, node⟩ := place
    simp only [Place.below] at below
    cases node with
    | item inner =>
      cases inner with
      | statement inner => simpa [Place.belowItem, Scope.places, ofNode, ofItem] using below
      | exported start declaration =>
        exact foretold_candidate rfl (fun _ => rfl) (foretold_ofDeclaration below)
      | _ =>
        refine foretold_candidate rfl (fun _ => rfl) ?_
        simpa [Place.belowItem, Scope.places, functionNodes, classNodes, or_imp, forall_and]
          using below
    | statement inner =>
      cases inner <;> refine foretold_candidate rfl (fun _ => rfl) ?_ <;>
        simpa [Place.belowStatement, Scope.places, functionNodes, classNodes, or_imp, forall_and,
          ofNode] using below
    | declarator inner =>
      cases inner
      refine foretold_candidate rfl (fun _ => rfl) ?_
      simpa [Place.belowDeclarator, Scope.places, or_imp, forall_and, ofNode] using below
    | entry inner =>
      cases inner with
      | spread expr => simpa [Place.belowEntry, Scope.places, ofNode, ofEntry] using below
      | _ =>
        refine foretold_candidate rfl (fun _ => rfl) ?_
        simpa [Place.belowEntry, Scope.places, functionNodes, or_imp, forall_and, ofNode,
          and_assoc] using below
    | member inner =>
      cases inner <;> refine foretold_candidate rfl (fun _ => rfl) ?_ <;>
        simpa [Place.belowMember, Scope.places, functionNodes, or_imp, forall_and, ofNode]
          using below
    | expr inner =>
      cases inner with
      | assign start target value =>
        refine foretold_candidate rfl (fun _ => rfl) ?_
        simpa [Place.belowExpr, Scope.places, ofNode] using below
      | name | this | text => exact foretold_candidate rfl (fun _ => rfl) foretold_nil
      | _ =>
        refine foretold_candidate rfl (fun _ => rfl) ?_
        simpa [Place.belowExpr, Scope.places, functionNodes, classNodes, or_imp, forall_and,
          ofNode] using below
    | key inner =>
      cases inner with
      | plain => exact foretold_nil
      | computed expr => simpa [Place.belowKey, Scope.places, ofNode, ofKey] using below
    | pattern inner =>
      cases inner with
      | name => exact foretold_nil
      | _ => simpa [Place.belowPattern, Scope.places, ofNode, ofPattern] using below
    | target inner => exact foretold_ofTarget below
    | part inner =>
      cases inner <;>
        simpa [Place.belowPart, Scope.places, functionNodes, or_imp, forall_and, ofNode, ofPart]
          using below

theorem foretold_ofProgram (program : Program) : (ofProgram program).Foretold :=
  (foretold_ofList .item ofItems rfl (fun _ _ => rfl) program.items).mpr fun item _ =>
    foretold_ofNode ⟨.outermost, .item item⟩

end Outline

/-! ### Members in a program -/

namespace Script.Program

theorem candidates_eq_flatMap (program : Program) :
    program.candidates =
      (Scope.outermost.places (program.items.map .item)).flatMap Place.sites := by
  rw [← Outline.sites_ofProgram, Outline.ofProgram, Outline.sites_ofItems]
  rfl

theorem foreseen (program : Program) : Foreseen program.candidates := by
  rw [candidates_eq_flatMap]
  exact foreseen_places _

/-- The candidates of a program agree on what they tell of. -/
theorem agreeing {program : Program} (distinct : (propertyOffsets program.candidates).Nodup) :
    Agreeing program.candidates := by
  rw [candidates_eq_flatMap] at distinct ⊢
  exact agreeing_flatMap distinct fun place _ => place.agreeing

end Script.Program

end DocEntities
