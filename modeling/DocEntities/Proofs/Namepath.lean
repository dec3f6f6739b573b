/-
This file compares the two namepaths of a documented construct: the one that the path in the
code gives, and the one that is put together from container, name and instance flag. The first
reads the whole path at once. A `prototype` segment becomes the instance separator and takes
the segment behind it along, so what a segment means depends on how many prototypes stand
before it. The second knows only the container, whose closing prototype is dropped, and the
flag.

The two agree exactly if the flag says how the path reaches the name: through the separator of
a prototype, or by a plain dot. Both namepaths end with the name, so the comparison goes from
the right, segment by segment; the first prototype inside the name decides it.
-/

import DocEntities.Namepath
import DocEntities.Proofs.Text

namespace DocEntities.Namepath

/-! ### Segments -/

theorem segments_ne_nil (path : String) : segments path ≠ [] := by
  simpa [segments, Text.splitOnChar] using Text.splitWhere_ne_nil _ _

theorem segments_append (owner name : String) :
    segments (owner ++ "." ++ name) = segments owner ++ segments name := by
  have dot : ".".toList = ['.'] := rfl
  unfold segments Text.splitOnChar
  rw [String.toList_append, String.toList_append, dot, List.append_assoc, List.singleton_append,
    Text.splitWhere_beq_append_cons, List.map_append]

theorem segments_of_free {segment : String} (free : '.' ∉ segment.toList) :
    segments segment = [segment] := by
  have plain : ∀ c ∈ segment.toList, (c == '.') = false := by
    intro c member
    refine beq_eq_false_iff_ne.mpr ?_
    rintro rfl
    exact free member
  rw [segments, Text.splitOnChar, Text.splitWhere_of_free plain, List.map_singleton,
    String.ofList_toList]

theorem dot_not_mem_of_mem_segments {path segment : String} (member : segment ∈ segments path) :
    '.' ∉ segment.toList := by
  obtain ⟨piece, inPath, rfl⟩ := List.mem_map.mp member
  rw [String.toList_ofList]
  intro dot
  exact absurd (Text.not_separates_of_mem_splitWhere inPath '.' dot) (by decide)

/-- Segments behind a dot each. -/
def dotted : List String → String
  | [] => ""
  | segment :: rest => "." ++ segment ++ dotted rest

theorem join_cons (segment : String) (rest : List String) :
    Text.join "." (segment :: rest) = segment ++ dotted rest := by
  induction rest generalizing segment with
  | nil => simp [Text.join, dotted]
  | cons next more inductionHypothesis =>
    show segment ++ "." ++ Text.join "." (next :: more) = _
    rw [inductionHypothesis, dotted]
    simp only [String.append_assoc]

theorem dotted_of_ne_nil {path : List String} (some : path ≠ []) :
    dotted path = "." ++ Text.join "." path := by
  obtain ⟨segment, rest, rfl⟩ := List.exists_cons_of_ne_nil some
  rw [join_cons, dotted, String.append_assoc]

theorem join_segments (path : String) : Text.join "." (segments path) = path := by
  have joined : ∀ pieces : List (List Char),
      (Text.join "." (pieces.map String.ofList)).toList = Text.joinWith ['.'] pieces := by
    intro pieces
    induction pieces with
    | nil => rfl
    | cons piece rest inductionHypothesis =>
      cases rest with
      | nil => simp [Text.join, Text.joinWith]
      | cons next more =>
        show (String.ofList piece ++ "." ++ Text.join "." ((next :: more).map String.ofList)).toList
          = _
        rw [String.toList_append, inductionHypothesis,
          Text.joinWith_cons _ _ (List.cons_ne_nil _ _), String.toList_append, String.toList_ofList]
        rfl
  rw [← String.toList_inj, segments, Text.splitOnChar, joined, Text.joinWith_splitWhere]

theorem join_concat {path : List String} (nonempty : path ≠ []) (last : String) :
    Text.join "." (path ++ [last]) = Text.join "." path ++ "." ++ last :=
  Text.join_concat "." nonempty last

/-- Segments without a dot, joined by dots, are read again. -/
theorem segments_join_of_free {path : List String} (nonempty : path ≠ [])
    (free : ∀ segment ∈ path, '.' ∉ segment.toList) : segments (Text.join "." path) = path := by
  induction path with
  | nil => exact absurd rfl nonempty
  | cons segment rest inductionHypothesis =>
    have first := segments_of_free (free segment List.mem_cons_self)
    cases rest with
    | nil => exact first
    | cons next more =>
      have later := inductionHypothesis (List.cons_ne_nil _ _) fun other member =>
        free other (List.mem_cons_of_mem _ member)
      show segments (segment ++ "." ++ Text.join "." (next :: more)) = _
      rw [segments_append, first, later, List.singleton_append]

/-! ### How a path is read -/

/-- Whether the last of the segments that follow the first one is read as the instance
separator. -/
def endsOpen : List String → Bool
  | [] => false
  | [segment] => segment == prototypeSegment
  | segment :: next :: rest =>
    if segment == prototypeSegment then endsOpen rest else endsOpen (next :: rest)

/-- Whether the last segment of a path is read as the instance separator. -/
def opensInstance (path : List String) : Bool :=
  endsOpen path.tail

theorem renderTail_append_of_closed {front : List String} (closed : endsOpen front = false)
    (more : List String) : renderTail (front ++ more) = renderTail front ++ renderTail more := by
  fun_induction endsOpen front with
  | case1 => simp [renderTail]
  | case2 segment =>
    cases more with
    | nil => simp [renderTail]
    | cons next rest => simp [renderTail, closed]
  | case3 segment next rest prototype inductionHypothesis =>
    simp only [List.cons_append, renderTail, if_pos prototype, inductionHypothesis closed,
      String.append_assoc]
  | case4 segment next rest plain inductionHypothesis =>
    simp only [List.cons_append, renderTail, if_neg plain] at inductionHypothesis ⊢
    rw [inductionHypothesis closed]
    simp only [String.append_assoc]

/-- Behind an open end the next segment stands without a separator of its own. -/
theorem renderTail_append_of_open {front : List String} (openEnd : endsOpen front = true)
    (segment : String) (more : List String) :
    renderTail (front ++ segment :: more) = renderTail front ++ segment ++ renderTail more := by
  fun_induction endsOpen front with
  | case1 => cases openEnd
  | case2 last => simp [renderTail, openEnd]
  | case3 first next rest prototype inductionHypothesis =>
    simp only [List.cons_append, renderTail, if_pos prototype, inductionHypothesis openEnd,
      String.append_assoc]
  | case4 first next rest plain inductionHypothesis =>
    simp only [List.cons_append, renderTail, if_neg plain] at inductionHypothesis ⊢
    rw [inductionHypothesis openEnd]
    simp only [String.append_assoc]

theorem endsOpen_concat (front : List String) (last : String) :
    endsOpen (front ++ [last]) = (!endsOpen front && last == prototypeSegment) := by
  fun_induction endsOpen front with
  | case1 => rfl
  | case2 segment =>
    by_cases prototype : segment = prototypeSegment
    · simp [endsOpen, prototype]
    · simp [endsOpen, prototype]
  | case3 segment next rest prototype inductionHypothesis =>
    rw [← inductionHypothesis]
    simp only [List.cons_append, endsOpen, if_pos prototype]
  | case4 segment next rest plain inductionHypothesis =>
    rw [← inductionHypothesis]
    simp only [List.cons_append, endsOpen, if_neg plain]

/-- An open end is a prototype behind a closed one. -/
theorem exists_concat_of_endsOpen {tail : List String} (openEnd : endsOpen tail = true) :
    ∃ front, tail = front ++ [prototypeSegment] ∧ endsOpen front = false := by
  rcases List.eq_nil_or_concat' tail with rfl | ⟨front, last, rfl⟩
  · cases openEnd
  · rw [endsOpen_concat, Bool.and_eq_true, Bool.not_eq_true', beq_iff_eq] at openEnd
    exact ⟨front, by rw [openEnd.2], openEnd.1⟩

theorem opensInstance_eq_false {path : List String}
    (plain : path.getLast? ≠ some prototypeSegment) : opensInstance path = false := by
  cases path with
  | nil => rfl
  | cons first tail =>
    rcases List.eq_nil_or_concat' tail with rfl | ⟨front, last, rfl⟩
    · rfl
    · have different : last ≠ prototypeSegment := by
        intro same
        refine plain ?_
        rw [← List.cons_append, List.getLast?_concat, same]
      show endsOpen (front ++ [last]) = false
      rw [endsOpen_concat, beq_eq_false_iff_ne.mpr different, Bool.and_false]

/-! ### The instance separator -/

/-- A text tells an instance member if it has a separator and does not end in one. -/
theorem hasInstanceTail_iff {text : List Char} :
    hasInstanceTail text = true ↔ '#' ∈ text ∧ text.getLast? ≠ some '#' := by
  induction text with
  | nil => simp [hasInstanceTail]
  | cons c rest inductionHypothesis =>
    by_cases later : '#' ∈ rest
    · have nonempty : rest ≠ [] := List.ne_nil_of_mem later
      rw [hasInstanceTail, if_neg (by simp [later]), inductionHypothesis, List.mem_cons,
        List.getLast?_cons_of_ne_nil nonempty, or_iff_right_of_imp fun _ => later]
    · by_cases separator : c = '#'
      · subst separator
        rw [hasInstanceTail, if_pos (by simp [later])]
        cases rest with
        | nil => simp
        | cons next more =>
          have last : (next :: more).getLast? ≠ some '#' := fun last =>
            later (List.mem_of_getLast? last)
          rw [List.getLast?_cons_cons]
          exact iff_of_true rfl ⟨List.mem_cons_self, last⟩
      · rw [hasInstanceTail, if_neg (by simp [separator]), inductionHypothesis]
        exact iff_of_false (fun both => later both.1) fun both =>
          (List.mem_cons.mp both.1).elim (fun same => separator same.symm) later

/-- The namepath text of segments has a separator if one of them is a prototype or has one. -/
theorem hash_mem_renderTail {tail : List String} :
    '#' ∈ (renderTail tail).toList ↔
      prototypeSegment ∈ tail ∨ ∃ segment ∈ tail, '#' ∈ segment.toList := by
  fun_induction renderTail tail with
  | case1 => simp
  | case2 segment isPrototype =>
    exact iff_of_true (by simp) (Or.inl (List.mem_singleton.mpr (beq_iff_eq.mp isPrototype).symm))
  | case3 segment plain =>
    have different : prototypeSegment ≠ segment := fun same => plain (beq_iff_eq.mpr same.symm)
    simp [different]
  | case4 segment next rest isPrototype =>
    refine iff_of_true (by simp) (Or.inl ?_)
    rw [beq_iff_eq.mp isPrototype]
    exact List.mem_cons_self
  | case5 segment next rest plain inductionHypothesis =>
    have different : prototypeSegment ≠ segment := fun same => plain (beq_iff_eq.mpr same.symm)
    have dot : '#' ∉ ".".toList := by decide
    have inTail : prototypeSegment ∈ segment :: next :: rest ↔ prototypeSegment ∈ next :: rest :=
      List.mem_cons.trans (or_iff_right different)
    have separated := List.exists_mem_cons_iff ('#' ∈ String.toList ·) segment (next :: rest)
    rw [String.toList_append, String.toList_append, List.mem_append, List.mem_append,
      inductionHypothesis, or_iff_right dot, inTail, separated]
    exact or_left_comm

theorem hash_mem_ofSegments {path : List String} :
    '#' ∈ (ofSegments path).toList ↔
      prototypeSegment ∈ path.tail ∨ ∃ segment ∈ path, '#' ∈ segment.toList := by
  cases path with
  | nil => simp [ofSegments]
  | cons first tail =>
    simp only [ofSegments, String.toList_append, List.mem_append, hash_mem_renderTail,
      List.tail_cons, List.mem_cons, exists_eq_or_imp]
    exact or_left_comm

/-- A last segment that is no prototype stands at the end of a namepath as it is. -/
theorem suffix_ofSegments_concat {last : String} (plain : last ≠ prototypeSegment)
    (path : List String) : last.toList <:+ (ofSegments (path ++ [last])).toList := by
  cases path with
  | nil => simp [ofSegments, renderTail]
  | cons first front =>
    have alone : renderTail [last] = "." ++ last := if_neg (by simpa using plain)
    rw [List.cons_append, ofSegments, String.toList_append]
    refine List.suffix_append_of_suffix ?_
    cases openEnd : endsOpen front with
    | false =>
      rw [renderTail_append_of_closed openEnd, alone, ← String.append_assoc, String.toList_append]
      exact List.suffix_append _ _
    | true =>
      rw [renderTail_append_of_open openEnd, renderTail, String.append_empty, String.toList_append]
      exact List.suffix_append _ _

/-! ### Comparison from the right -/

/-- Two texts that end in different characters differ. -/
theorem append_ne_append {first second : String} {a b : Char} (different : a ≠ b)
    (front back : String) (endsFirst : first.toList.getLast? = some a)
    (endsSecond : second.toList.getLast? = some b) : front ++ first ≠ back ++ second := by
  intro equal
  have last := congrArg (fun text => text.toList.getLast?) equal
  simp only [String.toList_append, List.getLast?_append, endsFirst, endsSecond, Option.some_or,
    Option.some.injEq] at last
  exact different last

theorem renderTail_of_free {tail : List String} (free : prototypeSegment ∉ tail) :
    renderTail tail = dotted tail := by
  induction tail with
  | nil => rfl
  | cons segment rest inductionHypothesis =>
    obtain ⟨notSegment, notRest⟩ := not_or.mp (mt List.mem_cons.mpr free)
    have plain : ¬(segment == prototypeSegment) = true := fun same =>
      notSegment (beq_iff_eq.mp same).symm
    cases rest with
    | nil => simp [renderTail, dotted, plain]
    | cons next more =>
      simp only [renderTail, if_neg plain, inductionHypothesis notRest]
      rfl

/-- A prototype among the segments shows, whatever stands before them: its separator meets the
end of the word, or the dot behind it. -/
theorem append_renderTail_ne {tail : List String} (prototype : prototypeSegment ∈ tail)
    (front back : String) : front ++ renderTail tail ≠ back ++ Text.join "." tail := by
  fun_induction renderTail tail generalizing front back with
  | case1 => cases prototype
  | case2 segment isPrototype =>
    rw [beq_iff_eq.mp isPrototype]
    exact append_ne_append (a := '#') (b := 'e') (by decide) front back rfl rfl
  | case3 segment plain =>
    exact absurd (List.mem_singleton.mp prototype).symm (mt beq_iff_eq.mpr plain)
  | case4 segment next rest isPrototype inductionHypothesis =>
    have shown : front ++ ("#" ++ next ++ renderTail rest) =
        front ++ "#" ++ next ++ renderTail rest := by
      simp only [String.append_assoc]
    have hidden : back ++ Text.join "." (segment :: next :: rest) =
        back ++ (prototypeSegment ++ ".") ++ next ++ dotted rest := by
      rw [beq_iff_eq.mp isPrototype, join_cons, dotted]
      simp only [String.append_assoc]
    rw [shown, hidden]
    by_cases again : prototypeSegment ∈ rest
    · rw [dotted_of_ne_nil (List.ne_nil_of_mem again), ← String.append_assoc]
      exact inductionHypothesis again _ _
    · rw [renderTail_of_free again, Ne, String.append_left_inj, String.append_left_inj]
      exact append_ne_append (a := '#') (b := '.') (by decide) front back rfl rfl
  | case5 segment next rest plain inductionHypothesis =>
    have later : prototypeSegment ∈ next :: rest :=
      (List.mem_cons.mp prototype).resolve_left fun same => plain (beq_iff_eq.mpr same.symm)
    have hidden : back ++ Text.join "." (segment :: next :: rest) =
        back ++ segment ++ "." ++ Text.join "." (next :: rest) := by
      rw [join_cons, join_cons, dotted]
      simp only [String.append_assoc]
    rw [hidden, ← String.append_assoc, ← String.append_assoc]
    exact inductionHypothesis later _ _

/-- Behind a closed path the namepath goes on as the name does if the name holds no prototype
and a dot stands before it. -/
theorem append_renderTail_eq_iff {name : List String} (some : name ≠ []) (front back : String) :
    front ++ renderTail name = back ++ Text.join "." name ↔
      prototypeSegment ∉ name ∧ front ++ "." = back := by
  by_cases held : prototypeSegment ∈ name
  · exact iff_of_false (append_renderTail_ne held _ _) fun both => both.1 held
  · rw [and_iff_right held, renderTail_of_free held, dotted_of_ne_nil some,
      ← String.append_assoc, String.append_left_inj]

/-- Behind an open path only the later segments of the name may be read otherwise. -/
theorem append_append_renderTail_eq_iff (front back segment : String) (rest : List String) :
    front ++ segment ++ renderTail rest = back ++ Text.join "." (segment :: rest) ↔
      prototypeSegment ∉ rest ∧ front = back := by
  rw [join_cons, ← String.append_assoc]
  by_cases held : prototypeSegment ∈ rest
  · refine iff_of_false ?_ fun both => both.1 held
    rw [dotted_of_ne_nil (List.ne_nil_of_mem held), ← String.append_assoc]
    exact append_renderTail_ne held _ _
  · rw [and_iff_right held, renderTail_of_free held, String.append_left_inj,
      String.append_left_inj]

/-! ### Containers -/

theorem dropPrototype_concat (first : String) (front : List String) (last : String) :
    dropPrototype (first :: (front ++ [last])) =
      if last = prototypeSegment then first :: front else first :: (front ++ [last]) := by
  induction front generalizing first with
  | nil => simp [dropPrototype]
  | cons next rest inductionHypothesis =>
    have step : dropPrototype (first :: next :: (rest ++ [last])) =
        first :: dropPrototype (next :: (rest ++ [last])) := by
      cases rest <;> rfl
    rw [List.cons_append, step, inductionHypothesis]
    split <;> rfl

theorem dropPrototype_eq_self {path : List String}
    (plain : path.getLast? ≠ some prototypeSegment) : dropPrototype path = path := by
  cases path with
  | nil => rfl
  | cons first tail =>
    rcases List.eq_nil_or_concat' tail with rfl | ⟨front, last, rfl⟩
    · rfl
    · rw [dropPrototype_concat, if_neg]
      intro same
      refine plain ?_
      rw [← List.cons_append, List.getLast?_concat, same]

theorem ofSegments_of_opensInstance {path : List String} (openEnd : opensInstance path = true) :
    ofSegments path = ofSegments (dropPrototype path) ++ "#" := by
  cases path with
  | nil => cases openEnd
  | cons first tail =>
    obtain ⟨front, rfl, closed⟩ := exists_concat_of_endsOpen openEnd
    rw [dropPrototype_concat, if_pos rfl, ofSegments, ofSegments,
      renderTail_append_of_closed closed, String.append_assoc]
    rfl

/-- A prototype that closes a path but is read as a name is dropped from the container, and the
container is another one. -/
theorem ofSegments_dropPrototype_eq_iff {path : List String} (closed : opensInstance path = false) :
    ofSegments (dropPrototype path) = ofSegments path ↔ dropPrototype path = path := by
  refine ⟨fun equal => ?_, congrArg ofSegments⟩
  cases path with
  | nil => rfl
  | cons first tail =>
    rcases List.eq_nil_or_concat' tail with rfl | ⟨front, last, rfl⟩
    · rfl
    · rw [dropPrototype_concat] at equal ⊢
      split
      · rename_i prototype
        rw [if_pos prototype, ofSegments, ofSegments, String.append_right_inj] at equal
        have openFront : endsOpen front = true := by
          have last : endsOpen (front ++ [last]) = false := closed
          rw [endsOpen_concat, prototype, beq_self_eq_true, Bool.and_true] at last
          simpa using last
        rw [renderTail_append_of_open openFront, renderTail, String.append_empty,
          prototype] at equal
        have length := congrArg String.length equal
        rw [String.length_append] at length
        exact absurd length (Nat.ne_of_lt (Nat.lt_add_of_pos_right (by decide)))
      · rfl

/-! ### The namepath of parts -/

/-- The name at the end of a namepath, with the mark of an event. -/
def markedName (name : String) (kind : Option Kind) : String :=
  if kind = some .event then eventMark ++ name else name

theorem ofParts_some {owner : String} (named : owner ≠ "") (name : String)
    (instanceMember : Bool) (kind : Option Kind) :
    ofParts (some owner) name instanceMember kind =
      owner ++ ((if instanceMember then "#" else ".") ++ markedName name kind) := by
  have notEmpty : ¬owner.isEmpty = true := by simpa using named
  simp only [ofParts, if_neg notEmpty, markedName, String.append_assoc]

theorem markedName_suffix_ofParts (container : Option String) (name : String)
    (instanceMember : Bool) (kind : Option Kind) :
    (markedName name kind).toList <:+ (ofParts container name instanceMember kind).toList := by
  cases container with
  | none => exact List.suffix_rfl
  | some owner =>
    by_cases empty : owner = ""
    · subst empty
      exact List.suffix_rfl
    · rw [ofParts_some empty, String.toList_append, String.toList_append]
      exact (List.suffix_append _ _).trans (List.suffix_append _ _)

/-- What stands between the container and the name tells whether the name is an instance
member. -/
theorem junction_ofParts {owner : String} (named : owner ≠ "") (name : String)
    (instanceMember : Bool) (kind : Option Kind) :
    (ofParts (some owner) name instanceMember kind).toList[owner.toList.length]? =
      some (if instanceMember then '#' else '.') := by
  rw [ofParts_some named, String.toList_append, List.getElem?_append_right (Nat.le_refl _),
    Nat.sub_self, String.toList_append]
  cases instanceMember <;> rfl

/-- An empty container counts as none. -/
theorem ofParts_filter (container : Option String) (name : String) (instanceMember : Bool)
    (kind : Option Kind) :
    ofParts (container.filter (fun owner => !owner.isEmpty)) name instanceMember kind =
      ofParts container name instanceMember kind := by
  cases container with
  | none => rfl
  | some owner =>
    by_cases empty : owner = ""
    · subst empty
      rfl
    · rw [Option.filter_some_pos (by simpa using empty)]

/-! ### Two namepaths of one member -/

/-- The instance flag says how a path reaches a name: through the separator of a prototype, or
by a dot, with nothing in the name that the path reads as a separator. -/
def Tells (owner name : String) (instanceMember : Bool) : Prop :=
  if opensInstance (segments owner) = true then
    instanceMember = true ∧ prototypeSegment ∉ (segments name).tail
  else
    instanceMember = false ∧ prototypeSegment ∉ segments name ∧
      dropPrototype (segments owner) = segments owner

/-- What stands before the name of a member of a container. -/
def lead (container : String) (instanceMember : Bool) : String :=
  if container = "" then "" else container ++ (if instanceMember then "#" else ".")

theorem ofParts_of_not_event {kind : Option Kind} (plain : kind ≠ some .event)
    (container name : String) (instanceMember : Bool) :
    ofParts (some container) name instanceMember kind = lead container instanceMember ++ name := by
  unfold ofParts lead
  simp only [if_neg plain]
  by_cases empty : container = ""
  · simp [empty]
  · simp [empty]

theorem append_eq_lead_iff (front container : String) (mark instanceMember : Bool) :
    front ++ (if mark then "#" else ".") = lead container instanceMember ↔
      container ≠ "" ∧ instanceMember = mark ∧ front = container := by
  unfold lead
  by_cases empty : container = ""
  · rw [if_pos empty]
    refine iff_of_false (fun equal => ?_) fun both => both.1 empty
    have length := congrArg String.length equal
    cases mark <;> simp at length
  · rw [if_neg empty, and_iff_right empty]
    cases mark <;> cases instanceMember <;> simp only [Bool.false_eq_true, if_true, if_false]
    · rw [String.append_left_inj, and_iff_right trivial]
    · exact iff_of_false (append_ne_append (a := '.') (b := '#') (by decide) _ _ rfl rfl) nofun
    · exact iff_of_false (append_ne_append (a := '#') (b := '.') (by decide) _ _ rfl rfl) nofun
    · rw [String.append_left_inj, and_iff_right trivial]

theorem ofSegments_append_eq_iff_of_open {path : List String} (openEnd : opensInstance path = true)
    {name : List String} (some : name ≠ []) (back : String) :
    ofSegments (path ++ name) = back ++ Text.join "." name ↔
      prototypeSegment ∉ name.tail ∧ ofSegments path = back := by
  obtain ⟨segment, rest, rfl⟩ := List.exists_cons_of_ne_nil some
  cases path with
  | nil => cases openEnd
  | cons first tail =>
    have openTail : endsOpen tail = true := openEnd
    rw [List.cons_append, ofSegments, renderTail_append_of_open openTail, ← String.append_assoc,
      ← String.append_assoc, append_append_renderTail_eq_iff]
    rfl

theorem ofSegments_append_eq_iff_of_closed {path : List String} (nonempty : path ≠ [])
    (closed : opensInstance path = false) {name : List String} (some : name ≠ [])
    (back : String) :
    ofSegments (path ++ name) = back ++ Text.join "." name ↔
      prototypeSegment ∉ name ∧ ofSegments path ++ "." = back := by
  obtain ⟨first, tail, rfl⟩ := List.exists_cons_of_ne_nil nonempty
  have closedTail : endsOpen tail = false := closed
  rw [List.cons_append, ofSegments, renderTail_append_of_closed closedTail, ← String.append_assoc,
    append_renderTail_eq_iff some]
  rfl

/-- The namepath of a path is that of its parts exactly if the path has a container and the
flag tells how it reaches the name. -/
theorem ofPath_eq_ofParts_iff {kind : Option Kind} (plain : kind ≠ some .event)
    (owner name : String) (instanceMember : Bool) :
    ofPath (owner ++ "." ++ name) = ofParts (some (ofContainer owner)) name instanceMember kind ↔
      ofContainer owner ≠ "" ∧ Tells owner name instanceMember := by
  have whole : ofParts (some (ofContainer owner)) name instanceMember kind =
      lead (ofContainer owner) instanceMember ++ Text.join "." (segments name) := by
    rw [ofParts_of_not_event plain, join_segments]
  rw [whole, ofPath, segments_append]
  unfold Tells
  by_cases openEnd : opensInstance (segments owner) = true
  · have separated := append_eq_lead_iff (ofContainer owner) (ofContainer owner) true instanceMember
    rw [if_pos rfl] at separated
    rw [if_pos openEnd, ofSegments_append_eq_iff_of_open openEnd (segments_ne_nil name),
      ofSegments_of_opensInstance openEnd, ← ofContainer, separated]
    constructor
    · rintro ⟨free, held, told, -⟩
      exact ⟨held, told, free⟩
    · rintro ⟨held, told, free⟩
      exact ⟨free, held, told, rfl⟩
  · have closed : opensInstance (segments owner) = false := by simpa using openEnd
    have separated :=
      append_eq_lead_iff (ofSegments (segments owner)) (ofContainer owner) false instanceMember
    rw [if_neg Bool.false_ne_true] at separated
    rw [if_neg openEnd,
      ofSegments_append_eq_iff_of_closed (segments_ne_nil owner) closed (segments_ne_nil name),
      separated, ← ofSegments_dropPrototype_eq_iff closed, ← ofContainer]
    constructor
    · rintro ⟨free, held, told, same⟩
      exact ⟨held, told, free, same.symm⟩
    · rintro ⟨held, told, free, same⟩
      exact ⟨free, held, told, same.symm⟩

/-- A prototype behind an open path is read as a name, and closes it. -/
theorem opensInstance_concat_prototype {path : List String} (nonempty : path ≠ []) :
    opensInstance (path ++ [prototypeSegment]) = !opensInstance path := by
  obtain ⟨first, tail, rfl⟩ := List.exists_cons_of_ne_nil nonempty
  show endsOpen (tail ++ [prototypeSegment]) = !endsOpen tail
  rw [endsOpen_concat, beq_self_eq_true, Bool.and_true]

theorem dropPrototype_concat_prototype {path : List String} (nonempty : path ≠ []) :
    dropPrototype (path ++ [prototypeSegment]) = path := by
  obtain ⟨first, tail, rfl⟩ := List.exists_cons_of_ne_nil nonempty
  rw [List.cons_append, dropPrototype_concat, if_pos rfl]

theorem dropPrototype_ne_of_opensInstance {path : List String}
    (openEnd : opensInstance path = true) : dropPrototype path ≠ path := by
  cases path with
  | nil => cases openEnd
  | cons first tail =>
    obtain ⟨front, rfl, -⟩ := exists_concat_of_endsOpen openEnd
    rw [dropPrototype_concat, if_pos rfl]
    simp

/-- A member of the instances of a class lies behind a prototype that its path does not show.
The namepaths agree unless the path of the class ends in a prototype itself. -/
theorem ofPath_prototype_eq_ofParts_iff {kind : Option Kind} (plain : kind ≠ some .event)
    (owner name : String) :
    ofPath (owner ++ "." ++ ("prototype." ++ name)) =
        ofParts (some (ofContainer owner)) name true kind ↔
      ofContainer owner ≠ "" ∧ prototypeSegment ∉ (segments name).tail ∧
        dropPrototype (segments owner) = segments owner := by
  have whole : ofParts (some (ofContainer owner)) name true kind =
      lead (ofContainer owner) true ++ Text.join "." (segments name) := by
    rw [ofParts_of_not_event plain, join_segments]
  have path : segments (owner ++ "." ++ ("prototype." ++ name)) =
      segments owner ++ [prototypeSegment] ++ segments name := by
    have inner : "prototype." ++ name = prototypeSegment ++ "." ++ name := rfl
    have alone : segments prototypeSegment = [prototypeSegment] := by decide
    rw [inner, segments_append, segments_append, alone, List.append_assoc]
  have ends := opensInstance_concat_prototype (segments_ne_nil owner)
  rw [whole, ofPath, path]
  by_cases openEnd : opensInstance (segments owner) = true
  · rw [openEnd] at ends
    have separated := append_eq_lead_iff (ofSegments (segments owner ++ [prototypeSegment]))
      (ofContainer owner) false true
    rw [if_neg Bool.false_ne_true] at separated
    rw [ofSegments_append_eq_iff_of_closed (by simp) ends (segments_ne_nil name), separated]
    refine iff_of_false (fun both => nomatch both.2.2.1) fun both => ?_
    exact dropPrototype_ne_of_opensInstance openEnd both.2.2
  · have closed : opensInstance (segments owner) = false := by simpa using openEnd
    rw [closed] at ends
    have separated :=
      append_eq_lead_iff (ofSegments (segments owner)) (ofContainer owner) true true
    rw [if_pos rfl] at separated
    rw [ofSegments_append_eq_iff_of_open ends (segments_ne_nil name),
      ofSegments_of_opensInstance ends, dropPrototype_concat_prototype (segments_ne_nil owner),
      separated, ← ofSegments_dropPrototype_eq_iff closed, ← ofContainer]
    constructor
    · rintro ⟨free, held, -, same⟩
      exact ⟨held, free, same.symm⟩
    · rintro ⟨held, free, same⟩
      exact ⟨free, held, rfl, same.symm⟩

end DocEntities.Namepath
