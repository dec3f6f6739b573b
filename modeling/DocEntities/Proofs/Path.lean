/-
This file proves how the text of a joined path relates to the texts it was joined from. Behind a
base, a path that does not start at the top is only put behind the separator, so joining is
associative and the pieces of both stay what they were. The way up to a directory is a base
too, made of steps to the directory above and of nothing else.
-/

import DocEntities.Path
import DocEntities.Proofs.Text

namespace DocEntities.Path

/-! ### Joining -/

/-- What stands in front of a path that is taken from a base. -/
def lead (base : String) : String :=
  if base.isEmpty then "" else if endsWithSeparator base then base else base ++ "/"

theorem join_of_isAbsolute (base : String) {path : String} (absolute : isAbsolute path = true) :
    join base path = path := by
  rw [join, absolute, Bool.true_or, if_pos rfl]

theorem join_of_relative (base : String) {path : String} (relative : isAbsolute path = false) :
    join base path = lead base ++ path := by
  unfold join lead
  rw [relative, Bool.false_or]
  split
  · rw [String.empty_append]
  · split <;> rfl

theorem join_empty (path : String) : join "" path = path := by
  rw [join, show String.isEmpty "" = true from rfl, Bool.or_true, if_pos rfl]

theorem lead_empty : lead "" = "" := rfl

theorem lead_of_ne_empty {base : String} (some : base ≠ "") :
    lead base = if endsWithSeparator base then base else base ++ "/" := by
  rw [lead, if_neg (by rwa [String.isEmpty_iff])]

/-- In front of a path stands nothing, or a text and the separator. -/
theorem exists_lead {base : String} (some : base ≠ "") :
    ∃ front, lead base = front ++ "/" ∧ (base = front ∨ base = front ++ "/") := by
  rw [lead_of_ne_empty some]
  by_cases ends : endsWithSeparator base = true
  · obtain ⟨front, chars⟩ := List.getLast?_eq_some_iff.mp (beq_iff_eq.mp ends)
    have text : base = String.ofList front ++ "/" := by
      rw [← String.toList_inj, chars]
      simp
    exact ⟨String.ofList front, by rw [if_pos ends, ← text], Or.inr text⟩
  · exact ⟨base, by rw [if_neg ends], Or.inl rfl⟩

theorem isAbsolute_append (first second : String) :
    isAbsolute (first ++ second) = if first = "" then isAbsolute second else isAbsolute first := by
  unfold isAbsolute
  split
  · rename_i none
    rw [none, String.empty_append]
  · rename_i some
    obtain ⟨c, rest, chars⟩ :=
      List.exists_cons_of_ne_nil (mt String.toList_eq_nil_iff.mp some)
    rw [String.toList_append, chars, List.cons_append, List.head?_cons, List.head?_cons]

theorem endsWithSeparator_append (first : String) {second : String} (some : second ≠ "") :
    endsWithSeparator (first ++ second) = endsWithSeparator second := by
  unfold endsWithSeparator
  rw [String.toList_append,
    List.getLast?_append_of_ne_nil _ (mt String.toList_eq_nil_iff.mp some)]

theorem isAbsolute_lead (base : String) : isAbsolute (lead base) = isAbsolute base := by
  by_cases none : base = ""
  · rw [none, lead_empty]
  · obtain ⟨front, text, rfl | rfl⟩ := exists_lead none
    · rw [text, isAbsolute_append, if_neg none]
    · rw [text]

theorem lead_lead_append (base path : String) :
    lead (lead base ++ path) = lead base ++ lead path := by
  by_cases none : path = ""
  · rw [none, lead_empty, String.append_empty]
    by_cases here : base = ""
    · rw [here, lead_empty, lead_empty]
    · obtain ⟨front, text, -⟩ := exists_lead here
      have ends : endsWithSeparator (front ++ "/") = true :=
        endsWithSeparator_append front (by decide)
      rw [text, lead_of_ne_empty (by simp), if_pos ends]
  · have some : lead base ++ path ≠ "" := by
      rw [Ne, String.append_eq_empty_iff]
      exact fun both => none both.2
    rw [lead_of_ne_empty some, lead_of_ne_empty none, endsWithSeparator_append _ none]
    split
    · rfl
    · rw [String.append_assoc]

theorem isAbsolute_join_of_relative {base path : String} (relative : isAbsolute path = false) :
    isAbsolute (join base path) = isAbsolute base := by
  rw [join_of_relative base relative, isAbsolute_append]
  split
  · rename_i none
    rw [relative, ← isAbsolute_lead, none]
    rfl
  · exact isAbsolute_lead base

/-- A path taken from a place that is itself taken from a base. -/
theorem join_assoc (base middle path : String) :
    join (join base middle) path = join base (join middle path) := by
  cases absolute : isAbsolute path with
  | true => simp only [join_of_isAbsolute _ absolute]
  | false =>
    cases fromTop : isAbsolute middle with
    | true =>
      rw [join_of_isAbsolute base fromTop, join_of_isAbsolute base]
      rw [isAbsolute_join_of_relative absolute, fromTop]
    | false =>
      have relative : isAbsolute (join middle path) = false := by
        rw [isAbsolute_join_of_relative absolute, fromTop]
      rw [join_of_relative base relative, join_of_relative base fromTop,
        join_of_relative _ absolute, join_of_relative _ absolute, lead_lead_append,
        String.append_assoc]

theorem lead_ne_empty {base : String} (some : base ≠ "") : lead base ≠ "" := by
  obtain ⟨front, text, -⟩ := exists_lead some
  rw [text]
  simp

theorem join_ne_empty {base : String} (some : base ≠ "") (path : String) : join base path ≠ "" := by
  cases absolute : isAbsolute path with
  | true =>
    rw [join_of_isAbsolute base absolute]
    rintro rfl
    cases absolute
  | false =>
    rw [join_of_relative base absolute, Ne, String.append_eq_empty_iff]
    exact fun both => lead_ne_empty some both.1

/-- From a base that does not start at the top, different paths lead along different texts. -/
theorem join_injective {base : String} (relative : isAbsolute base = false) :
    Function.Injective (join base) := by
  by_cases none : base = ""
  · intro first second same
    rwa [none, join_empty, join_empty] at same
  · have changes : ∀ path, isAbsolute (join base path) = isAbsolute path := by
      intro path
      cases absolute : isAbsolute path with
      | true => rw [join_of_isAbsolute base absolute, absolute]
      | false => rw [isAbsolute_join_of_relative absolute, relative]
    intro first second same
    have both : isAbsolute first = isAbsolute second := by rw [← changes, same, changes]
    cases absolute : isAbsolute second with
    | true =>
      rw [absolute] at both
      rwa [join_of_isAbsolute base absolute, join_of_isAbsolute base both] at same
    | false =>
      rw [absolute] at both
      rw [join_of_relative base absolute, join_of_relative base both, ← String.toList_inj,
        String.toList_append, String.toList_append] at same
      exact String.toList_inj.mp (List.append_cancel_left same)

theorem utf8ByteSize_le_join (base : String) {path : String} (relative : isAbsolute path = false) :
    base.utf8ByteSize ≤ (join base path).utf8ByteSize := by
  rw [join_of_relative base relative, String.utf8ByteSize_append]
  by_cases none : base = ""
  · rw [none]
    exact Nat.zero_le _
  · obtain ⟨front, text, rfl | rfl⟩ := exists_lead none
    · rw [text, String.utf8ByteSize_append]
      omega
    · rw [text]
      omega

/-- Joining brings in no character but the separator. -/
theorem contains_join {base path : String} {c : Char} (other : c ≠ '/')
    (free : base.toList.contains c = false) :
    (join base path).toList.contains c = path.toList.contains c := by
  cases absolute : isAbsolute path with
  | true => rw [join_of_isAbsolute base absolute]
  | false =>
    have freeLead : c ∉ (lead base).toList := by
      rw [List.contains_eq_mem, decide_eq_false_iff_not] at free
      by_cases none : base = ""
      · rw [none]
        exact List.not_mem_nil
      · obtain ⟨front, text, rfl | rfl⟩ := exists_lead none
        · rw [text, String.toList_append, List.mem_append]
          rintro (inside | separator)
          · exact free inside
          · exact other (List.mem_singleton.mp separator)
        · rwa [text]
    rw [join_of_relative base absolute, String.toList_append, List.contains_append,
      List.contains_eq_mem, decide_eq_false freeLead, Bool.false_or]

/-! ### Pieces of joined paths -/

theorem pieces_append_separator (front path : String) :
    pieces (front ++ "/" ++ path) = pieces front ++ pieces path := by
  unfold pieces Text.splitOnChar
  have chars : (front ++ "/" ++ path).toList = front.toList ++ '/' :: path.toList := by simp
  rw [chars, Text.splitWhere_beq_append_cons, List.map_append]

theorem pieces_ne_nil (path : String) : pieces path ≠ [] := by
  unfold pieces Text.splitOnChar
  rw [Ne, List.map_eq_nil_iff]
  exact Text.splitWhere_ne_nil _ _

/-- What is made of the pieces of a joined path, if nothing is made of empty ones. -/
theorem filterMap_pieces_join {Part : Type} {part? : String → Option Part}
    (blank : part? "" = none) (base : String) {path : String}
    (relative : isAbsolute path = false) :
    (pieces (join base path)).filterMap part? =
      (pieces base).filterMap part? ++ (pieces path).filterMap part? := by
  have nothing : (pieces "").filterMap part? = [] := by
    show [""].filterMap part? = []
    rw [List.filterMap_cons_none blank, List.filterMap_nil]
  by_cases none : base = ""
  · rw [none, join_empty, nothing, List.nil_append]
  · obtain ⟨front, text, rfl | rfl⟩ := exists_lead none
    · rw [join_of_relative _ relative, text, pieces_append_separator, List.filterMap_append]
    · have ending : pieces (front ++ "/") = pieces front ++ pieces "" := by
        rw [← pieces_append_separator, String.append_empty]
      rw [join_of_relative _ relative, text, pieces_append_separator, ending,
        List.filterMap_append, List.filterMap_append, nothing, List.append_nil]

theorem head?_pieces_join {base path : String} (some : base ≠ "")
    (relative : isAbsolute path = false) :
    (pieces (join base path)).head? = (pieces base).head? := by
  obtain ⟨front, text, rfl | rfl⟩ := exists_lead some
  · rw [join_of_relative _ relative, text, pieces_append_separator,
      List.head?_append_of_ne_nil _ (pieces_ne_nil _)]
  · have ending : pieces (front ++ "/") = pieces front ++ pieces "" := by
      rw [← pieces_append_separator, String.append_empty]
    rw [join_of_relative _ relative, text, pieces_append_separator, ending,
      List.head?_append_of_ne_nil _ (pieces_ne_nil _),
      List.head?_append_of_ne_nil _ (pieces_ne_nil _)]

/-! ### Components of joined paths -/

/-- The components of a path without what they start with: the top, or the place itself. -/
def inner (path : String) : List Component :=
  (pieces path).filterMap Component.ofPiece?

theorem components_eq_inner_or (path : String) :
    components path = inner path ∨ ∃ opening, components path = opening :: inner path ∧
      (opening = .top ∨ opening = .here) := by
  unfold components
  split
  · exact Or.inr ⟨.top, rfl, Or.inl rfl⟩
  · split
    · exact Or.inr ⟨.here, rfl, Or.inr rfl⟩
    · exact Or.inl rfl

theorem inner_join (base : String) {path : String} (relative : isAbsolute path = false) :
    inner (join base path) = inner base ++ inner path :=
  filterMap_pieces_join rfl base relative

theorem components_join {base path : String} (some : base ≠ "")
    (relative : isAbsolute path = false) :
    components (join base path) = components base ++ inner path := by
  have insides := inner_join base relative
  unfold inner at insides
  unfold components
  rw [isAbsolute_join_of_relative relative, head?_pieces_join some relative, insides]
  split
  · rfl
  · split <;> rfl

theorem top_not_mem_inner (path : String) : Component.top ∉ inner path := by
  intro member
  obtain ⟨piece, -, top⟩ := List.mem_filterMap.mp member
  unfold Component.ofPiece? at top
  split at top
  · cases top
  · split at top <;> cases top

/-- A path from the top is above no path from elsewhere. -/
theorem isUnder_of_isAbsolute {path ancestor : String} (relative : isAbsolute path = false)
    (absolute : isAbsolute ancestor = true) : isUnder path ancestor = false := by
  rw [isUnder, components, if_pos absolute, Bool.eq_false_iff, Ne, List.isPrefixOf_iff_prefix]
  intro under
  have top : Component.top ∈ components path := under.subset List.mem_cons_self
  unfold components at top
  rw [if_neg (by rw [relative]; exact Bool.false_ne_true)] at top
  split at top
  · exact (List.mem_cons.mp top).elim Component.noConfusion (top_not_mem_inner path)
  · exact top_not_mem_inner path top

/-- The name that a component stands for, if there is a component and it stands for one. -/
def nameOf? : Option Component → Option String
  | some (.named name) => some name
  | _ => none

theorem fileName?_eq (path : String) : fileName? path = nameOf? (components path).getLast? := by
  unfold fileName?
  cases (components path).getLast? with
  | none => rfl
  | some last => cases last <;> rfl

theorem fileName?_eq_inner (path : String) : fileName? path = nameOf? (inner path).getLast? := by
  rw [fileName?_eq]
  rcases components_eq_inner_or path with same | ⟨opening, same, mark⟩
  · rw [same]
  · rw [same, List.getLast?_cons]
    cases (inner path).getLast? with
    | none => rcases mark with rfl | rfl <;> rfl
    | some last => rfl

/-- Behind a base that ends in no name, a path keeps the name at its end. -/
theorem fileName?_join {base : String} (nameless : fileName? base = none) (path : String) :
    fileName? (join base path) = fileName? path := by
  cases absolute : isAbsolute path with
  | true => rw [join_of_isAbsolute base absolute]
  | false =>
    rw [fileName?_eq_inner, fileName?_eq_inner path, inner_join base absolute,
      List.getLast?_append]
    cases (inner path).getLast? with
    | some last => rfl
    | none =>
      rw [fileName?_eq_inner] at nameless
      exact nameless

/-- Only a path from the top starts with an empty piece. -/
theorem eq_empty_of_head?_pieces {path : String} (relative : isAbsolute path = false)
    (blank : (pieces path).head? = some "") : path = "" := by
  by_contra some
  obtain ⟨c, rest, text⟩ := List.exists_cons_of_ne_nil (mt String.toList_eq_nil_iff.mp some)
  have dark : ¬(c == '/') = true := by
    intro separator
    rw [isAbsolute, text, List.head?_cons, beq_iff_eq.mp separator] at relative
    cases relative
  obtain ⟨next, more, cut⟩ :=
    List.exists_cons_of_ne_nil (Text.splitWhere_ne_nil (· == '/') rest)
  rw [pieces, Text.splitOnChar, text, Text.splitWhere, if_neg dark, cut, Text.consFirst,
    List.map_cons, List.head?_cons, Option.some.injEq, ← String.toList_inj,
    String.toList_ofList] at blank
  cases blank

theorem eq_empty_of_components_eq_nil {path : String} (nothing : components path = []) :
    path = "" := by
  unfold components at nothing
  split at nothing
  · cases nothing
  · rename_i relative
    split at nothing
    · cases nothing
    · rename_i notHere
      refine eq_empty_of_head?_pieces (Bool.not_eq_true _ ▸ relative) ?_
      obtain ⟨piece, rest, cut⟩ := List.exists_cons_of_ne_nil (pieces_ne_nil path)
      rw [cut, List.head?_cons, beq_iff_eq, Option.some.injEq] at notHere
      rw [cut, List.filterMap_eq_nil_iff] at nothing
      have first := nothing piece List.mem_cons_self
      unfold Component.ofPiece? at first
      rw [cut, List.head?_cons]
      grind

/-- A path that leads away from where it starts. -/
def LeadsAway (path : String) : Prop :=
  path ≠ "" ∧ isHere path = false

theorem LeadsAway.components {path : String} (away : LeadsAway path) :
    components path ≠ [] ∧ components path ≠ [.here] :=
  ⟨mt eq_empty_of_components_eq_nil away.1, beq_eq_false_iff_ne.mp away.2⟩

theorem LeadsAway.join {base : String} (away : LeadsAway base) (path : String) :
    LeadsAway (join base path) := by
  refine ⟨join_ne_empty away.1 path, ?_⟩
  unfold isHere
  rw [beq_eq_false_iff_ne]
  cases absolute : isAbsolute path with
  | true =>
    rw [join_of_isAbsolute base absolute, Path.components, if_pos absolute]
    exact fun same => Component.noConfusion (List.cons.inj same).1
  | false =>
    rw [components_join away.1 absolute]
    intro here
    rcases List.append_eq_singleton_iff.mp here with ⟨nothing, -⟩ | ⟨here, -⟩
    · exact away.components.1 nothing
    · exact away.components.2 here

theorem leadsAway_of_fileName? {path name : String} (named : fileName? path = some name) :
    LeadsAway path := by
  refine ⟨?_, ?_⟩
  · rintro rfl
    cases named
  · rw [isHere, beq_eq_false_iff_ne]
    intro here
    rw [fileName?, here] at named
    cases named

/-! ### Steps along joined paths -/

theorem filter_pieces_join (base : String) {path : String} (relative : isAbsolute path = false) :
    (pieces (join base path)).filter (fun piece => !piece.isEmpty) =
      (pieces base).filter (fun piece => !piece.isEmpty) ++
        (pieces path).filter (fun piece => !piece.isEmpty) := by
  simp only [← List.filterMap_eq_filter]
  exact filterMap_pieces_join rfl base relative

theorem steps_join (base : String) {path : String} (relative : isAbsolute path = false)
    (some : path ≠ "") :
    steps (join base path) =
      (pieces base).filter (fun piece => !piece.isEmpty) ++ steps path := by
  rw [steps, steps, filter_pieces_join base relative, join_of_relative base relative,
    endsWithSeparator_append _ some, List.append_assoc]

/-! ### The way up -/

/-- The path that leads up a number of levels. -/
def climb (levels : Nat) : String :=
  Text.join "/" (List.replicate levels "..")

theorem climb_zero : climb 0 = "" := rfl

theorem isAbsolute_climb (levels : Nat) : isAbsolute (climb levels) = false := by
  match levels with
  | 0 => rfl
  | 1 => rfl
  | levels + 2 =>
    show isAbsolute (".." ++ "/" ++ climb (levels + 1)) = false
    rw [isAbsolute_append, if_neg (by decide)]
    rfl

theorem climb_succ_succ (levels : Nat) : climb (levels + 2) = join ".." (climb (levels + 1)) := by
  rw [join_of_relative ".." (isAbsolute_climb _)]
  rfl

/-- One level more is one step more at the end. -/
theorem climb_succ (levels : Nat) : climb (levels + 1) = join (climb levels) ".." := by
  induction levels with
  | zero => rfl
  | succ levels inductionHypothesis =>
    rw [climb_succ_succ, inductionHypothesis, ← join_assoc]
    cases levels with
    | zero => rfl
    | succ levels => rw [← climb_succ_succ, ← inductionHypothesis]

theorem climb_ne_empty (levels : Nat) : climb (levels + 1) ≠ "" := by
  cases levels with
  | zero => decide
  | succ levels =>
    rw [climb_succ_succ]
    exact join_ne_empty (by decide) _

theorem filter_pieces_climb (levels : Nat) :
    (pieces (climb levels)).filter (fun piece => !piece.isEmpty) =
      List.replicate levels ".." := by
  induction levels with
  | zero => rfl
  | succ levels inductionHypothesis =>
    rw [climb_succ, filter_pieces_join _ rfl, inductionHypothesis, List.replicate_succ']
    rfl

theorem components_climb (levels : Nat) :
    components (climb levels) = List.replicate levels .parent := by
  induction levels with
  | zero => rfl
  | succ levels inductionHypothesis =>
    cases levels with
    | zero => rfl
    | succ levels =>
      rw [climb_succ, components_join (climb_ne_empty _) rfl, inductionHypothesis]
      exact List.replicate_succ'.symm

theorem leadsAway_climb (levels : Nat) : LeadsAway (climb (levels + 1)) := by
  refine ⟨climb_ne_empty levels, ?_⟩
  rw [isHere, components_climb, beq_eq_false_iff_ne, List.replicate_succ]
  exact fun same => Component.noConfusion (List.cons.inj same).1

theorem fileName?_climb (levels : Nat) : fileName? (climb levels) = none := by
  rw [fileName?_eq, components_climb, List.getLast?_replicate]
  cases levels <;> rfl

theorem contains_climb {c : Char} (notDot : c ≠ '.') (notSeparator : c ≠ '/') (levels : Nat) :
    (climb levels).toList.contains c = false := by
  induction levels with
  | zero => rfl
  | succ levels inductionHypothesis =>
    rw [climb_succ, contains_join notSeparator inductionHypothesis]
    simp [notDot]

theorem components_join_climb (levels : Nat) {path : String}
    (relative : isAbsolute path = false) :
    components (join (climb (levels + 1)) path) =
      List.replicate (levels + 1) .parent ++ inner path := by
  rw [components_join (climb_ne_empty levels) relative, components_climb]

/-- Behind the way up, a path is under another if it is by itself, unless the place itself at the
start of one of them makes a difference. -/
theorem isUnder_join_climb (levels : Nat) {path ancestor : String}
    (relative : isAbsolute path = false) (plain : components path = inner path)
    (plainAncestor : isAbsolute ancestor = true ∨ components ancestor = inner ancestor) :
    isUnder (join (climb levels) path) (join (climb levels) ancestor) = isUnder path ancestor := by
  cases levels with
  | zero => rw [climb_zero, join_empty, join_empty]
  | succ levels =>
    cases absolute : isAbsolute ancestor with
    | true =>
      have notTop : isAbsolute (join (climb (levels + 1)) path) = false := by
        rw [isAbsolute_join_of_relative relative, isAbsolute_climb]
      rw [join_of_isAbsolute _ absolute, isUnder_of_isAbsolute notTop absolute,
        isUnder_of_isAbsolute relative absolute]
    | false =>
      have same := plainAncestor.resolve_left (by rw [absolute]; exact Bool.false_ne_true)
      rw [isUnder, isUnder, components_join_climb levels relative,
        components_join_climb levels absolute, plain, same, Bool.eq_iff_iff,
        List.isPrefixOf_iff_prefix, List.isPrefixOf_iff_prefix, List.prefix_append_right_inj]

/-- One level more is one step more at the start of every path taken from there. -/
theorem join_climb_succ (levels : Nat) {path : String} (relative : isAbsolute path = false) :
    join (climb (levels + 1)) path = "../" ++ join (climb levels) path := by
  cases levels with
  | zero =>
    rw [climb_zero, join_empty]
    exact join_of_relative ".." relative
  | succ levels =>
    rw [climb_succ_succ, join_assoc]
    refine join_of_relative ".." ?_
    rw [isAbsolute_join_of_relative relative, isAbsolute_climb]

end DocEntities.Path
