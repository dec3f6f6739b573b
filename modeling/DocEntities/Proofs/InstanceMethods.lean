/-
This file compares the ways to write a method of the instances of a class: as a member of the
prototype, as a property of an object that is the prototype, as a method of a class body, and as
a property of the object that `extend` is given. The first two are members of a path. In a class
body the prototype is left out of the path, and the code puts it back. In the object of `extend`
the place in the code does not show that the property belongs to the instances; the record that
the class leaves for the property does. All of them tell the same.
-/

import DocEntities.Proofs.CommentFormat
import DocEntities.Proofs.Containers
import DocEntities.Proofs.Spelling

namespace DocEntities

open Script

/-! ### Namepaths through a prototype -/

namespace Namepath

/-- The last separator of a text tells an instance member if something without a separator
follows it. -/
theorem hasInstanceTail_append {rest : List Char} (front : List Char) (nonempty : rest ≠ [])
    (free : '#' ∉ rest) : hasInstanceTail (front ++ '#' :: rest) = true := by
  rw [hasInstanceTail_iff, List.getLast?_append_of_ne_nil _ (List.cons_ne_nil _ _),
    List.getLast?_cons_of_ne_nil nonempty]
  exact ⟨by simp, fun last => free (List.mem_of_getLast? last)⟩

theorem isInstance_of_isIdentifier (owner : String) {name : String}
    (identifier : isIdentifier name = true) : isInstance (owner ++ "#" ++ name) = true := by
  have nonempty : name.toList ≠ [] := by
    simpa using ne_empty_of_isIdentifier identifier
  have separated : (owner ++ "#" ++ name).toList = owner.toList ++ '#' :: name.toList := by
    rw [String.toList_append, String.toList_append, List.append_assoc]
    rfl
  rw [isInstance, separated]
  exact hasInstanceTail_append _ nonempty (hash_not_mem_of_isIdentifier identifier)

section

variable {path : List String} (nonempty : path ≠ [])
  (identifiers : ∀ segment ∈ path, isIdentifier segment = true)

include nonempty identifiers

theorem ofContainer_join (plain : path.getLast? ≠ some prototypeSegment) :
    ofContainer (Text.join "." path) = ofPath (Text.join "." path) := by
  rw [ofContainer, ofPath, segments_join nonempty identifiers, dropPrototype_eq_self plain]

theorem ofContainer_join_prototype :
    ofContainer (Text.join "." (path ++ [prototypeSegment])) = ofPath (Text.join "." path) := by
  have alone : segments prototypeSegment = [prototypeSegment] := by decide
  rw [ofContainer, ofPath, join_concat nonempty, segments_append,
    segments_join nonempty identifiers, alone, dropPrototype_concat_prototype nonempty]

/-- What is reached through the prototype of a class stands behind the instance separator. -/
theorem ofPath_join_prototype (plain : path.getLast? ≠ some prototypeSegment) {name : String}
    (identifier : isIdentifier name = true) :
    ofPath (Text.join "." (path ++ [prototypeSegment]) ++ "." ++ name) =
      ofPath (Text.join "." path) ++ "#" ++ name := by
  have alone : segments prototypeSegment = [prototypeSegment] := by decide
  have closed := opensInstance_eq_false plain
  rw [ofPath, ofPath, join_concat nonempty, segments_append, segments_append,
    segments_join nonempty identifiers, alone, segments_of_isIdentifier identifier]
  obtain ⟨first, tail, rfl⟩ := List.exists_cons_of_ne_nil nonempty
  have closedTail : endsOpen tail = false := closed
  rw [List.append_assoc, List.cons_append, ofSegments, renderTail_append_of_closed closedTail,
    ofSegments]
  simp [renderTail, String.append_assoc]

end

end Namepath

/-! ### Spellings of a method -/

/-- A function with these parameters. -/
inductive Script.Expr.IsFunction (params : List Pattern) : Expr → Prop
  | function (start : Position) (body : List Statement) :
    IsFunction params (.function start params body)
  | arrow (start : Position) (body : List Part) : IsFunction params (.arrow start params body)

/-- A call of `extend` on a base, with an object that has these entries. -/
inductive Script.Expr.IsExtension (base : Expr) (entries : List Entry) : Expr → Prop
  | call (start calleeStart objectStart : Position) (rest : List Part) :
    IsExtension base entries
      (.call start (.member calleeStart base (.plain extendMethod))
        (.expr (.object objectStart entries) :: rest))

/-- The statements that define the class of a path by a class body. -/
inductive ClassSpelling (members : List Script.Member) : List String → Statement → Prop
  /-- `a.b = class { … }` -/
  | assigned {path : List String} {target : Pattern} {base : Option Expr}
    (start exprStart classStart : Position) (isPath : target.IsPath path) :
    ClassSpelling members path
      (.expression start (.assign exprStart target (.class classStart members base)))
  /-- `class a { … }` -/
  | declared {base : Option Expr} (start : Position) (word : String) :
    ClassSpelling members [word] (.class start word members base)
  /-- `var a = class { … }` -/
  | held {base : Option Expr} (start valueStart classStart : Position) (word : String) :
    ClassSpelling members [word]
      (.declaration start [.mk valueStart (.name word) (some (.class classStart members base))])

/-- The statements that define the method `name` of the instances of the class of a path, each
with the node that a comment on the method documents. -/
inductive MethodSpelling (utilityNamespaces : List String) (path : List String) (name : String)
    (params : List Pattern) : Statement → TreeNode → Prop
  /-- `a.prototype.name = function … ` -/
  | assigned {target : Pattern} {value : Expr} (start exprStart : Position)
    (isPath : target.IsPath (path ++ [Namepath.prototypeSegment] ++ [name]))
    (function : value.IsFunction params) :
    MethodSpelling utilityNamespaces path name params
      (.expression start (.assign exprStart target value))
      (.statement (.expression start (.assign exprStart target value)))
  /-- `a.prototype = { name: function … }` -/
  | literal {target : Pattern} {value : Expr} {entries : List Entry}
    (start exprStart objectStart keyStart : Position)
    (isPath : target.IsPath (path ++ [Namepath.prototypeSegment]))
    (member : .pair keyStart (.plain name) value ∈ entries) (function : value.IsFunction params) :
    MethodSpelling utilityNamespaces path name params
      (.expression start (.assign exprStart target (.object objectStart entries)))
      (.entry (.pair keyStart (.plain name) value))
  /-- `a = class { name(…) { … } }`, however the class is defined -/
  | classBody {statement : Statement} {members : List Script.Member} {body : List Statement}
    (keyStart : Position) (defined : ClassSpelling members path statement)
    (member : .method keyStart (.plain name) false params body ∈ members) :
    MethodSpelling utilityNamespaces path name params statement
      (.member (.method keyStart (.plain name) false params body))
  /-- `a = Base.extend({ name: function … })`, if `Base` is no namespace of helper functions -/
  | extension {target : Pattern} {base extended value : Expr} {entries : List Entry}
    (start exprStart keyStart : Position) (isPath : target.IsPath path)
    (isExtension : Expr.IsExtension base entries extended)
    (notUtility : isUtility utilityNamespaces base.path? = false)
    (member : .pair keyStart (.plain name) value ∈ entries) (function : value.IsFunction params) :
    MethodSpelling utilityNamespaces path name params
      (.expression start (.assign exprStart target extended))
      (.entry (.pair keyStart (.plain name) value))

/-! ### What a statement tells of a method -/

/-- What is known of a method of the instances of the class `owner`. -/
def methodEvidence (owner name : String) (params : List Pattern) : Evidence :=
  { codeId := some (owner ++ "#" ++ name)
    kind := some .function
    name := some name
    container := some owner
    isInstanceMember := some true
    params := (paramNames params).map Param.named }

/-- The site of a statement that stands outside of everything. -/
def Script.Statement.site (statement : Statement) : Site :=
  ⟨.outermost, statement.start, .ofStatement statement⟩

/-- What the code of a documented site tells of a site inside it: the shape of that site, and over
it the record that is left for it. -/
def Site.tells (around : Surroundings) (owner site : Site) : Evidence :=
  (site.shape.describe site.scope around.options.utilityNamespaces).evidence.merge
    ((Walk.record? ((owner.records around).foldl Walk.leaveRecord []) site.offset).getD .empty)

namespace Site

variable {around : Surroundings} {owner site : Site}

/-- Only a class that `extend` defines leaves records. -/
theorem records_eq_nil_of_value
    (plain : ∀ base members, owner.shape.value ≠ .extension base members) :
    owner.records around = [] := by
  refine List.eq_nil_iff_forall_not_mem.mpr fun entry left => ?_
  obtain ⟨base, members, -, value, -⟩ := Shape.mem_records_describe_iff.mp left
  exact plain base members value

theorem tells_of_value (plain : ∀ base members, owner.shape.value ≠ .extension base members) :
    owner.tells around site =
      (site.shape.describe site.scope around.options.utilityNamespaces).evidence := by
  rw [tells, records_eq_nil_of_value plain]
  exact Evidence.merge_empty _

end Site

theorem Script.Expr.IsFunction.value {params : List Pattern} {expr : Expr}
    (function : expr.IsFunction params) : Value.ofExpr expr = .function (paramNames params) := by
  cases function <;> rfl

theorem Script.Expr.IsExtension.value {base expr : Expr} {entries : List Entry}
    (isExtension : Expr.IsExtension base entries expr) :
    Value.ofExpr expr = .extension base.path? (entries.filterMap Script.Entry.member?) := by
  cases isExtension
  rfl

theorem Script.Pattern.IsPath.value_assignment {path : List String} {target : Pattern}
    (isPath : target.IsPath path) (start exprStart : Position) (value : Expr) :
    (Shape.ofStatement (.expression start (.assign exprStart target value))).value =
      .ofExpr value := by
  cases isPath <;> rfl

/-- The code gives a class that is assigned the namepath of the path it is assigned to. -/
theorem Script.Pattern.IsPath.codeId_assignment {path : List String} {target : Pattern}
    (isPath : target.IsPath path) (identifiers : ∀ segment ∈ path, isIdentifier segment = true)
    (start exprStart : Position) (value : Expr) (utilityNamespaces : List String) :
    ((Shape.ofStatement (.expression start (.assign exprStart target value))).describe .outermost
      utilityNamespaces).evidence.codeId = some (Namepath.ofPath (Text.join "." path)) := by
  have codeId := fun holder =>
    ((Value.ofExpr value).sameIdentity_describe true utilityNamespaces holder).codeId
  cases isPath with
  | name word =>
    have alone := Namepath.segments_of_isIdentifier (identifiers word (List.mem_singleton_self _))
    refine (codeId _).trans ?_
    show some word = some (Namepath.ofSegments (Namepath.segments word))
    rw [alone, Namepath.ofSegments, Namepath.renderTail, String.append_empty]
  | member memberStart word inner =>
    refine (codeId _).trans ?_
    rw [inner.path?, Namepath.join_concat inner.ne_nil]
    rfl

namespace Place

/-- On the way to a member of a class the path of the class is gone into. -/
theorem reaches_member {members : List Script.Member} {path : List String}
    {statement : Statement} (defined : ClassSpelling members path statement)
    (identifiers : ∀ segment ∈ path, isIdentifier segment = true) {member : Script.Member}
    (inside : member ∈ members) :
    Reaches ⟨.outermost, .statement statement⟩ ⟨Scope.outermost.push path, .member member⟩ := by
  have node (base : Option Expr) : TreeNode.member member ∈ classNodes members base :=
    List.mem_append_left _ (List.mem_map_of_mem inside)
  have toMember (start : Position) (base : Option Expr) :
      Reaches ⟨Scope.outermost.push path, .expr (.class start members base)⟩
        ⟨Scope.outermost.push path, .member member⟩ :=
    have below : (⟨Scope.outermost.push path, .member member⟩ : Place) ∈
        below ⟨Scope.outermost.push path, .expr (.class start members base)⟩ :=
      mem_places.mpr ⟨rfl, node base⟩
    .of_mem below .refl
  cases defined with
  | assigned start exprStart classStart isPath =>
    exact (reaches_assigned isPath identifiers .outermost start exprStart _).trans
      (toMember classStart _)
  | declared start word => exact .of_mem (mem_places.mpr ⟨rfl, node _⟩) .refl
  | held start valueStart classStart word =>
    exact (reaches_declared (List.mem_singleton_self _) rfl .outermost start).trans
      (toMember classStart _)

/-- The object that a class is defined by is in the scope of the call. -/
theorem reaches_extension {base expr : Expr} {entries : List Entry}
    (isExtension : Expr.IsExtension base entries expr) {entry : Entry} (member : entry ∈ entries)
    (scope : Scope) : Reaches ⟨scope, .expr expr⟩ ⟨scope, .entry entry⟩ := by
  cases isExtension with
  | call start calleeStart objectStart rest =>
    have toArgument : (⟨scope, .part (.expr (.object objectStart entries))⟩ : Place) ∈
        below ⟨scope, .expr (.call start (.member calleeStart base (.plain extendMethod))
          (.expr (.object objectStart entries) :: rest))⟩ :=
      mem_places.mpr ⟨rfl, List.mem_cons_of_mem _ List.mem_cons_self⟩
    have toObject : (⟨scope, .expr (.object objectStart entries)⟩ : Place) ∈
        below ⟨scope, .part (.expr (.object objectStart entries))⟩ :=
      List.mem_singleton_self _
    have toEntry : (⟨scope, .entry entry⟩ : Place) ∈
        below ⟨scope, .expr (.object objectStart entries)⟩ :=
      mem_places.mpr ⟨rfl, List.mem_map_of_mem member⟩
    exact .of_mem toArgument (.of_mem toObject (.of_mem toEntry .refl))

end Place

section

variable {path : List String} {name : String}
  (identifiers : ∀ segment ∈ path, isIdentifier segment = true)
  (identifier : isIdentifier name = true)
  (plain : path.getLast? ≠ some Namepath.prototypeSegment) (nonempty : path ≠ [])

include identifiers identifier plain nonempty

/-- A member of the prototype of a class. -/
theorem Shape.memberEvidence_prototype :
    memberEvidence .outermost (Text.join "." (path ++ [Namepath.prototypeSegment])) name =
      memberRecord (Namepath.ofPath (Text.join "." path)) name := by
  have id := Namepath.ofPath_join_prototype nonempty identifiers plain identifier
  have owner := Namepath.ofContainer_join_prototype nonempty identifiers
  have qualified (inner : String) : Scope.outermost.qualify inner = inner := rfl
  have topLevel : Scope.outermost.isTopLevel = true := rfl
  simp only [memberEvidence, memberRecord, qualified, topLevel, id, owner, onlyTrue,
    Namepath.isInstance_of_isIdentifier _ identifier, if_true]

/-- A member of the instances in a class body. -/
theorem Shape.classMemberEvidence_instance :
    classMemberEvidence (Scope.outermost.push path) name false none =
      memberRecord (Namepath.ofPath (Text.join "." path)) name := by
  have containers : (Scope.outermost.push path).path = Text.join "." path := rfl
  have topLevel : (Scope.outermost.push path).isTopLevel = true := rfl
  have named : (Text.join "." path).isEmpty = false := by
    simpa using Namepath.join_ne_empty nonempty identifiers
  have placed : ¬(Scope.outermost.push path).path.isEmpty = true := by
    rw [containers, named]
    exact Bool.false_ne_true
  have through : Text.join "." path ++ "." ++ ("prototype." ++ name) =
      Text.join "." (path ++ [Namepath.prototypeSegment]) ++ "." ++ name := by
    have split : "prototype." = Namepath.prototypeSegment ++ "." := rfl
    rw [Namepath.join_concat nonempty, split]
    simp only [String.append_assoc]
  have id := Namepath.ofPath_join_prototype nonempty identifiers plain identifier
  have owner := Namepath.ofContainer_join nonempty identifiers plain
  rw [← through] at id
  simp [classMemberEvidence, memberRecord, Scope.qualify_of_path placed, containers, topLevel,
    named, id, owner, onlyTrue]

end

/-! ### Every spelling tells the same -/

/-- What the code of a documented statement tells of a node in it, outside of all functions. -/
def Script.Statement.Tells (around : Surroundings) (statement : Statement) (node : TreeNode)
    (evidence : Evidence) : Prop :=
  ∃ scope site, scope.depth = 0 ∧
    Place.Reaches ⟨.outermost, .statement statement⟩ ⟨scope, node⟩ ∧
    Place.site? ⟨scope, node⟩ = some site ∧ statement.site.tells around site = evidence

section

variable {around : Surroundings} {path : List String} {name : String} {params : List Pattern}
  (identifiers : ∀ segment ∈ path, isIdentifier segment = true)
  (identifier : isIdentifier name = true)
  (plain : path.getLast? ≠ some Namepath.prototypeSegment) (nonempty : path ≠ [])

include identifiers identifier plain nonempty

/-- A function that is a member of the prototype. -/
theorem tells_of_memberSpelling {value : Expr} {statement : Statement} {node : TreeNode}
    {start : Position}
    (spelled : MemberSpelling (path ++ [Namepath.prototypeSegment]) name value statement node)
    (function : value.IsFunction params) (starts : node.start? = some start)
    (notExtension : ∀ base members, statement.site.shape.value ≠ .extension base members) :
    statement.Tells around node
      (methodEvidence (Namepath.ofPath (Text.join "." path)) name params) := by
  have through : ∀ segment ∈ path ++ [Namepath.prototypeSegment], isIdentifier segment = true := by
    intro segment member
    rcases List.mem_append.mp member with before | last
    · exact identifiers segment before
    · rw [List.mem_singleton.mp last]
      decide
  obtain ⟨scope, depth, reaches, described⟩ := spelled.exists_place (by simp) through
    around.options.utilityNamespaces
  refine ⟨scope, ⟨scope, start, node.shape⟩, depth, reaches, ?_, ?_⟩
  · rw [Place.site?, starts]
    rfl
  · rw [Site.tells_of_value notExtension, described, function.value,
      Shape.memberEvidence_prototype identifiers identifier plain nonempty]
    rfl

/-- A method of a class body. -/
theorem tells_of_classSpelling {members : List Script.Member} {statement : Statement}
    {body : List Statement} {keyStart : Position}
    (defined : ClassSpelling members path statement)
    (member : .method keyStart (.plain name) false params body ∈ members) :
    statement.Tells around (.member (.method keyStart (.plain name) false params body))
      (methodEvidence (Namepath.ofPath (Text.join "." path)) name params) := by
  have notExtension : ∀ base members, statement.site.shape.value ≠ .extension base members := by
    cases defined with
    | assigned start exprStart classStart isPath =>
      intro base members
      rw [Script.Statement.site, isPath.value_assignment]
      nofun
    | declared start word => nofun
    | held start valueStart classStart word => nofun
  refine ⟨Scope.outermost.push path, ⟨Scope.outermost.push path, keyStart, _⟩, rfl,
    Place.reaches_member defined identifiers member, rfl, ?_⟩
  have described : (Shape.ofMember (.method keyStart (.plain name) false params body)).describe
      (Scope.outermost.push path) around.options.utilityNamespaces =
      (Value.function (paramNames params)).describe true around.options.utilityNamespaces
        (Shape.classMemberEvidence (Scope.outermost.push path) name false none) := rfl
  rw [Shape.classMemberEvidence_instance identifiers identifier plain nonempty] at described
  rw [Site.tells_of_value notExtension]
  exact congrArg Description.evidence described

omit identifier plain

/-- A property of the object that defines a class. -/
theorem tells_of_extension {target : Pattern} {base extended value : Expr} {entries : List Entry}
    {start exprStart keyStart : Position} {sites : List Site} (placed : Walk.Placed sites)
    (inside : Statement.site (.expression start (.assign exprStart target extended)) ∈ sites)
    (isPath : target.IsPath path) (isExtension : Expr.IsExtension base entries extended)
    (notUtility : isUtility around.options.utilityNamespaces base.path? = false)
    (member : .pair keyStart (.plain name) value ∈ entries) (function : value.IsFunction params) :
    Statement.Tells around (.expression start (.assign exprStart target extended))
      (.entry (.pair keyStart (.plain name) value))
      (methodEvidence (Namepath.ofPath (Text.join "." path)) name params) := by
  have left : (keyStart.offset, memberRecord (Namepath.ofPath (Text.join "." path)) name) ∈
      Site.records around
        (Statement.site (.expression start (.assign exprStart target extended))) :=
    Shape.mem_records_describe_iff.mpr
      ⟨base.path?, entries.filterMap Script.Entry.member?, _,
        (isPath.value_assignment start exprStart extended).trans isExtension.value, notUtility,
        isPath.codeId_assignment identifiers start exprStart extended _,
        (keyStart.offset, name), List.mem_filterMap.mpr ⟨_, member, rfl⟩, rfl⟩
  have record : Walk.record? ((Site.records around (Statement.site
      (.expression start (.assign exprStart target extended)))).foldl Walk.leaveRecord [])
      keyStart.offset = some (memberRecord (Namepath.ofPath (Text.join "." path)) name) :=
    @Walk.Run.record?_leave _ _ {} placed _ inside _ inside _ left (Or.inr left)
  have described : (Shape.ofEntry (.pair keyStart (.plain name) value)).describe
      (Scope.outermost.push path) around.options.utilityNamespaces =
      (Value.function (paramNames params)).describe true around.options.utilityNamespaces
        (Shape.memberEvidence .outermost (Text.join "." path) name) := by
    rw [← Shape.propertyEvidence_eq_memberEvidence nonempty identifiers, ← function.value]
    rfl
  refine ⟨Scope.outermost.push path, ⟨Scope.outermost.push path, keyStart,
    .ofEntry (.pair keyStart (.plain name) value)⟩, rfl, ?_, rfl, ?_⟩
  · exact (Place.reaches_assigned isPath identifiers .outermost start exprStart extended).trans
      (Place.reaches_extension isExtension member _)
  · rw [Site.tells, described]
    simp only [Site.offset]
    rw [record]
    rfl

end

theorem Script.Program.Holds.site_mem {program : Program} {statement : Statement}
    (held : program.Holds ⟨.outermost, .statement statement⟩) :
    statement.site ∈ program.candidates :=
  List.mem_filterMap.mpr ⟨_, mem_traversal_iff.mpr held, rfl⟩

/-- However a method of the instances of a class is written, the code tells the same of it: it
belongs to the class, and is named behind the instance separator. -/
theorem tells_method_of_spelling {code : String} {elements : Bool} {parsed : Parsed}
    (read : parse? code elements = some parsed) {statement : Statement}
    (held : parsed.program.Holds ⟨.outermost, .statement statement⟩) {path : List String}
    {name : String} {params : List Pattern} {node : TreeNode} (nonempty : path ≠ [])
    (identifiers : ∀ segment ∈ path, isIdentifier segment = true)
    (plain : path.getLast? ≠ some Namepath.prototypeSegment)
    (identifier : isIdentifier name = true) (around : Surroundings)
    (spelled : MethodSpelling around.options.utilityNamespaces path name params statement node) :
    statement.Tells around node
      (methodEvidence (Namepath.ofPath (Text.join "." path)) name params) := by
  cases spelled with
  | assigned start exprStart isPath function =>
    refine tells_of_memberSpelling identifiers identifier plain nonempty
      (.assigned start exprStart isPath) function rfl fun base members => ?_
    rw [Statement.site, isPath.value_assignment, function.value]
    nofun
  | literal start exprStart objectStart keyStart isPath member function =>
    refine tells_of_memberSpelling identifiers identifier plain nonempty
      (.nested start exprStart keyStart (List.append_nil _).symm isPath (.here member)) function rfl
      fun base members => ?_
    rw [Statement.site, isPath.value_assignment]
    nofun
  | classBody keyStart defined member =>
    exact tells_of_classSpelling identifiers identifier plain nonempty defined member
  | extension start exprStart keyStart isPath isExtension notUtility member function =>
    exact tells_of_extension identifiers nonempty (placed_candidates read) held.site_mem isPath
      isExtension notUtility member function

/-- A class in the prototype of another one. -/
def innerClassSource : String :=
  "a.prototype.b=B.extend(\x7bm:function(x)\x7b\x7d\x7d)"

/-- The method of the inner class. -/
@[match_pattern]
def innerClassMethod : Entry :=
  .pair ⟨24, 1⟩ (.plain "m") (.function ⟨26, 1⟩ [.name "x"] [])

/-- The statement that the source is made of. -/
def innerClass : Statement :=
  .expression ⟨0, 1⟩ (.assign ⟨0, 1⟩ (.expr (prototypeChain none))
    (.call ⟨14, 1⟩ (.member ⟨14, 1⟩ (.name ⟨14, 1⟩ "B") (.plain extendMethod))
      [.expr (.object ⟨23, 1⟩ [innerClassMethod])]))

/-- Whether a program has that statement alone. -/
def isInnerClass : List Item → Bool
  | [.statement (.expression ⟨0, 1⟩ (.assign ⟨0, 1⟩
      (.expr (.member ⟨0, 1⟩ (.member ⟨0, 1⟩ (.name ⟨0, 1⟩ "a") (.plain "prototype"))
        (.plain "b")))
      (.call ⟨14, 1⟩ (.member ⟨14, 1⟩ (.name ⟨14, 1⟩ "B") (.plain "extend"))
        [.expr (.object ⟨23, 1⟩ [innerClassMethod])])))] => true
  | _ => false

theorem exists_innerClass :
    ∃ parsed, parse? innerClassSource false = some parsed ∧
      parsed.program.items = [.statement innerClass] := by
  have computed : (parse? innerClassSource false).map (fun parsed =>
      isInnerClass parsed.program.items) = some true := by decide +kernel
  obtain ⟨parsed, read, matched⟩ := Option.map_eq_some_iff.mp computed
  refine ⟨parsed, read, ?_⟩
  unfold isInnerClass at matched
  split at matched
  · assumption
  · cases matched

theorem tells_innerClassMethod :
    ∃ parsed, parse? innerClassSource false = some parsed ∧
      parsed.program.Holds ⟨.outermost, .statement innerClass⟩ ∧
      MethodSpelling defaultUtilityNamespaces ["a", "prototype", "b"] "m" [.name "x"] innerClass
        (.entry innerClassMethod) ∧
      innerClass.Tells (.ofParsed parsed {}) (.entry innerClassMethod)
        (methodEvidence "a#b" "m" [.name "x"]) := by
  obtain ⟨parsed, read, items⟩ := exists_innerClass
  have held : parsed.program.Holds ⟨.outermost, .statement innerClass⟩ := by
    refine ⟨.statement innerClass, ?_, .of_mem (List.mem_singleton_self _) .refl⟩
    rw [items]
    exact List.mem_singleton_self _
  have spelled : MethodSpelling defaultUtilityNamespaces ["a", "prototype", "b"] "m" [.name "x"]
      innerClass (.entry innerClassMethod) :=
    .extension _ _ _ (.member ⟨0, 1⟩ "b" (.member ⟨0, 1⟩ "prototype" (.name ⟨0, 1⟩ "a")))
      (.call _ _ _ _) (by decide) (List.mem_singleton_self _) (.function _ _)
  have told := tells_method_of_spelling read held (List.cons_ne_nil _ _) (by decide) (by decide)
    (by decide) (.ofParsed parsed {}) spelled
  exact ⟨parsed, read, held, spelled, told⟩

end DocEntities
