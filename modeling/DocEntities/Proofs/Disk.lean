/-
This file says what a disk has to be for its paths to make sense: every entry has a name that takes
one step, and the entries of a directory stand in the order of their names. Whatever is written
keeps a disk like that. On such a disk the way through a directory meets each entry under the path
that leads to it, name by name.
-/

import DocEntities.Proofs.Relocation

namespace DocEntities

open DocEntities.Path

/-! ### Names -/

/-- A text that may name an entry of a directory. -/
structure Path.IsName (name : String) : Prop where
  some : name ≠ ""
  away : name ≠ "." ∧ name ≠ ".."
  free : '/' ∉ name.toList ∧ '\x00' ∉ name.toList
  fits : name.utf8ByteSize ≤ Workspace.longestName

instance (name : String) : Decidable (Path.IsName name) :=
  decidable_of_iff (name ≠ "" ∧ (name ≠ "." ∧ name ≠ "..") ∧
    ('/' ∉ name.toList ∧ '\x00' ∉ name.toList) ∧ name.utf8ByteSize ≤ Workspace.longestName)
    ⟨fun parts => ⟨parts.1, parts.2.1, parts.2.2.1, parts.2.2.2⟩,
      fun named => ⟨named.some, named.away, named.free, named.fits⟩⟩

/-- A text that may be a path but for its length. -/
def Path.IsSpelled (path : String) : Prop :=
  path ≠ "" ∧ path.toList.contains '\x00' = false

theorem Workspace.checkPath_eq_ok_iff {path : String} :
    checkPath path = .ok () ↔ IsSpelled path ∧ path.utf8ByteSize ≤ longestPath := by
  unfold checkPath IsSpelled
  split
  · rename_i zero
    exact iff_of_false nofun fun both => absurd (zero.symm.trans both.1.2) (by decide)
  · rename_i free
    split
    · rename_i none
      exact iff_of_false nofun fun both => both.1.1 (String.isEmpty_iff.mp none)
    · rename_i some
      split
      · rename_i long
        rw [Bool.not_eq_true', ← Bool.not_eq_true, fits_iff] at long
        exact iff_of_false nofun fun both => long both.2
      · rename_i short
        rw [Bool.not_eq_true', Bool.not_eq_false, fits_iff] at short
        refine iff_of_true rfl ⟨⟨fun none => some (String.isEmpty_iff.mpr none), ?_⟩, short⟩
        exact Bool.eq_false_iff.mpr free

/-- What stands between the separators of a path has none in it. -/
theorem Path.chars_of_mem_pieces {path piece : String} (member : piece ∈ pieces path) :
    '/' ∉ piece.toList ∧ ∀ c ∈ piece.toList, c ∈ path.toList := by
  obtain ⟨chars, cut, rfl⟩ := List.mem_map.mp member
  rw [String.toList_ofList]
  exact ⟨fun inside => absurd (Text.not_separates_of_mem_splitWhere cut _ inside) (by decide),
    fun c inside => Text.mem_of_mem_splitWhere cut inside⟩

namespace Directory

/-- The names of the entries of a directory. -/
def names : Directory → List String
  | .empty => []
  | .file name _ rest | .folder name _ rest | .special name rest => name :: rest.names
  | .unlisted _ rest => rest.names

/-- The entries of a directory, and of all directories in it, have names, and stand in their
order. -/
def IsWellFormed : Directory → Prop
  | .empty => True
  | .file name _ rest | .special name rest =>
    IsName name ∧ (∀ other ∈ rest.names, name < other) ∧ rest.IsWellFormed
  | .folder name inside rest =>
    IsName name ∧ (∀ other ∈ rest.names, name < other) ∧ rest.IsWellFormed ∧ inside.IsWellFormed
  | .unlisted _ rest => rest.IsWellFormed

instance decidableIsWellFormed : (directory : Directory) → Decidable directory.IsWellFormed
  | .empty => isTrue trivial
  | .file _ _ rest | .special _ rest =>
    have := rest.decidableIsWellFormed
    inferInstanceAs (Decidable (_ ∧ _ ∧ _))
  | .unlisted _ rest => rest.decidableIsWellFormed
  | .folder _ inside rest =>
    have := inside.decidableIsWellFormed
    have := rest.decidableIsWellFormed
    inferInstanceAs (Decidable (_ ∧ _ ∧ _ ∧ _))

end Directory

/-- A directory that is an entry is well-formed. -/
def Node.IsWellFormed : Node → Prop
  | .file _ | .special => True
  | .folder inside => inside.IsWellFormed

namespace Directory

section Cons

variable (name other : String) (entry old : Node) (rest : Directory)

theorem names_cons : (cons name entry rest).names = name :: rest.names := by
  cases entry <;> rfl

theorem find?_cons : (cons other entry rest).find? name =
    if other = name then some entry else rest.find? name := by
  cases entry <;> rfl

theorem put_cons : (cons other old rest).put name entry =
    if other = name then cons name entry rest
    else if name < other then cons name entry (cons other old rest)
    else cons other old (rest.put name entry) := by
  cases old <;> rfl

theorem isWellFormed_cons_iff : (cons name entry rest).IsWellFormed ↔
    IsName name ∧ (∀ other ∈ rest.names, name < other) ∧ rest.IsWellFormed ∧
      entry.IsWellFormed := by
  cases entry with
  | file bytes | special =>
    exact ⟨fun formed => ⟨formed.1, formed.2.1, formed.2.2, trivial⟩,
      fun formed => ⟨formed.1, formed.2.1, formed.2.2.1⟩⟩
  | folder inside => exact Iff.rfl

end Cons

theorem mem_names_of_find? {directory : Directory} {name : String} {entry : Node}
    (found : directory.find? name = some entry) : name ∈ directory.names := by
  induction directory using consInduction with
  | empty => cases found
  | unlisted reason rest inductionHypothesis => exact inductionHypothesis found
  | cons other old rest _ inductionHypothesis =>
    rw [find?_cons] at found
    rw [names_cons]
    split at found
    · rename_i same
      exact same ▸ List.mem_cons_self
    · exact List.mem_cons_of_mem _ (inductionHypothesis found)

theorem IsWellFormed.isName {directory : Directory} (formed : directory.IsWellFormed) :
    ∀ name ∈ directory.names, IsName name := by
  induction directory using consInduction with
  | empty => exact fun _ member => nomatch member
  | unlisted reason rest inductionHypothesis => exact inductionHypothesis formed
  | cons name entry rest _ inductionHypothesis =>
    obtain ⟨isName, -, restFormed, -⟩ := (isWellFormed_cons_iff ..).mp formed
    rw [names_cons]
    exact List.forall_mem_cons.mpr ⟨isName, inductionHypothesis restFormed⟩

theorem IsWellFormed.find? {directory : Directory} (formed : directory.IsWellFormed)
    {name : String} {entry : Node} (found : directory.find? name = some entry) :
    entry.IsWellFormed := by
  induction directory using consInduction with
  | empty => cases found
  | unlisted reason rest inductionHypothesis => exact inductionHypothesis formed found
  | cons other old rest _ inductionHypothesis =>
    obtain ⟨-, -, restFormed, oldFormed⟩ := (isWellFormed_cons_iff ..).mp formed
    rw [find?_cons] at found
    split at found
    · exact Option.some.inj found ▸ oldFormed
    · exact inductionHypothesis restFormed found

end Directory

/-- What stands at a place of a well-formed disk is well-formed, and names lead there. -/
theorem Node.IsWellFormed.at? {entry below : Node} (formed : entry.IsWellFormed)
    {location : List String} (found : entry.at? location = some below) :
    below.IsWellFormed ∧ ∀ name ∈ location, IsName name := by
  induction location generalizing entry with
  | nil =>
    cases found
    exact ⟨formed, fun _ member => nomatch member⟩
  | cons name rest inductionHypothesis =>
    cases entry with
    | file bytes | special => cases found
    | folder inside =>
      rw [Node.at?] at found
      cases entered : inside.find? name with
      | none => rw [entered] at found; cases found
      | some next =>
        rw [entered] at found
        have isName := Directory.IsWellFormed.isName formed _
          (Directory.mem_names_of_find? entered)
        obtain ⟨belowFormed, restNamed⟩ :=
          inductionHypothesis (Directory.IsWellFormed.find? formed entered) found
        exact ⟨belowFormed, List.forall_mem_cons.mpr ⟨isName, restNamed⟩⟩

theorem Workspace.isWellFormed_of_nodeAt? {workspace : Workspace}
    (formed : workspace.disk.IsWellFormed) {location : List String} {entry : Node}
    (here : workspace.nodeAt? location = some entry) :
    entry.IsWellFormed ∧ ∀ name ∈ location, IsName name :=
  @Node.IsWellFormed.at? (.folder workspace.disk) entry formed location here

/-! ### Changes -/

namespace Directory

theorem mem_names_put {name other : String} {entry : Node} {directory : Directory}
    (member : other ∈ (directory.put name entry).names) :
    other = name ∨ other ∈ directory.names := by
  induction directory using consInduction with
  | empty =>
    rw [put, names_cons] at member
    exact Or.inl (List.mem_singleton.mp member)
  | unlisted reason rest inductionHypothesis => exact inductionHypothesis member
  | cons old kept rest _ inductionHypothesis =>
    rw [put_cons] at member
    rw [names_cons]
    split at member
    · rw [names_cons] at member
      exact (List.mem_cons.mp member).imp_right (List.mem_cons_of_mem _)
    · split at member
      · rw [names_cons, names_cons] at member
        exact List.mem_cons.mp member
      · rw [names_cons] at member
        rcases List.mem_cons.mp member with rfl | later
        · exact Or.inr List.mem_cons_self
        · exact (inductionHypothesis later).imp_right (List.mem_cons_of_mem _)

/-- An entry is put at its place. -/
theorem IsWellFormed.put {name : String} {entry : Node} {directory : Directory}
    (formed : directory.IsWellFormed) (isName : IsName name) (entryFormed : entry.IsWellFormed) :
    (directory.put name entry).IsWellFormed := by
  induction directory using consInduction with
  | empty =>
    exact (isWellFormed_cons_iff ..).mpr
      ⟨isName, (fun _ member => nomatch member), trivial, entryFormed⟩
  | unlisted reason rest inductionHypothesis => exact inductionHypothesis formed
  | cons other old rest _ inductionHypothesis =>
    obtain ⟨otherName, first, restFormed, oldFormed⟩ := (isWellFormed_cons_iff ..).mp formed
    rw [put_cons]
    by_cases same : other = name
    · rw [if_pos same]
      exact (isWellFormed_cons_iff ..).mpr ⟨isName, same ▸ first, restFormed, entryFormed⟩
    · rw [if_neg same]
      by_cases before : name < other
      · rw [if_pos before]
        refine (isWellFormed_cons_iff ..).mpr ⟨isName, ?_, formed, entryFormed⟩
        rw [names_cons]
        exact List.forall_mem_cons.mpr
          ⟨before, fun next member => String.lt_trans before (first next member)⟩
      · rw [if_neg before]
        refine (isWellFormed_cons_iff ..).mpr
          ⟨otherName, fun next member => ?_, inductionHypothesis restFormed, oldFormed⟩
        rcases mem_names_put member with rfl | later
        · exact Std.lt_of_le_of_ne (String.not_lt.mp before) same
        · exact first next later

theorem IsWellFormed.putAt {entry : Node} {location : List String} {directory : Directory}
    (formed : directory.IsWellFormed) (named : ∀ name ∈ location, IsName name)
    (entryFormed : entry.IsWellFormed) : (putAt entry location directory).IsWellFormed := by
  fun_induction Directory.putAt entry location directory with
  | case1 => exact formed
  | case2 name => exact formed.put (named name List.mem_cons_self) entryFormed
  | case3 name next rest directory inside inductionHypothesis =>
    obtain ⟨isName, restNamed⟩ := List.forall_mem_cons.mp named
    have insideFormed : inside.IsWellFormed := by
      unfold inside
      split
      · rename_i here
        exact formed.find? here
      · trivial
    exact formed.put isName (inductionHypothesis insideFormed restNamed)

end Directory

namespace Workspace

theorem nodeAt?_concat {workspace : Workspace} {location : List String} {inside : Directory}
    (here : workspace.nodeAt? location = some (.folder inside)) (name : String) :
    workspace.nodeAt? (location ++ [name]) = inside.find? name := by
  rw [nodeAt?, Node.at?_append, ← nodeAt?, here, Option.bind_some, Node.at?]
  cases inside.find? name <;> rfl

/-- What writing a file at a place comes to: a special entry swallows the text, and otherwise a file
with the text is put into the directory of the place. -/
theorem writeAt_eq_ok {workspace after : Workspace} {parent : List String} {name text : String}
    (written : workspace.writeAt parent name text = .ok after) :
    (workspace.nodeAt? (parent ++ [name]) = some .special ∧ after = workspace) ∨
      (∃ inside, workspace.nodeAt? parent = some (.folder inside)) ∧ (name ≠ "." ∧ name ≠ "..") ∧
        name.utf8ByteSize ≤ longestName ∧
        after = { workspace with
          disk := workspace.disk.putAt (.file text.toUTF8) (parent ++ [name]) } := by
  unfold writeAt at written
  split at written
  · cases written
  · cases written
  · cases written
  · rename_i inside here
    split at written
    · cases written
    · rename_i away
      split at written
      · cases written
      · rename_i short
        split at written
        · cases written
        · rename_i swallows
          cases written
          exact Or.inl ⟨(nodeAt?_concat here name).trans swallows, rfl⟩
        all_goals
          cases written
          exact Or.inr ⟨⟨inside, here⟩, not_or.mp away, Nat.not_lt.mp short, rfl⟩

theorem isWellFormed_writeAt {workspace after : Workspace} {parent : List String}
    {name text : String} (formed : workspace.disk.IsWellFormed) (some : name ≠ "")
    (free : '/' ∉ name.toList ∧ '\x00' ∉ name.toList)
    (written : workspace.writeAt parent name text = .ok after) : after.disk.IsWellFormed := by
  rcases writeAt_eq_ok written with ⟨-, rfl⟩ | ⟨⟨inside, here⟩, away, short, rfl⟩
  · exact formed
  · have isName : IsName name := ⟨some, away, free, short⟩
    refine formed.putAt (fun other member => ?_) trivial
    rcases List.mem_append.mp member with above | last
    · exact (isWellFormed_of_nodeAt? formed here).2 other above
    · exact List.mem_singleton.mp last ▸ isName

/-- Writing keeps a disk well-formed. -/
theorem isWellFormed_writeText {workspace after : Workspace} {path text : String}
    (formed : workspace.disk.IsWellFormed) (written : workspace.writeText path text = .ok after) :
    after.disk.IsWellFormed := by
  simp only [writeText, bind, Except.bind] at written
  split at written
  · cases written
  · rename_i checked
    obtain ⟨⟨-, plain⟩, -⟩ := checkPath_eq_ok_iff.mp checked
    split at written
    · cases written
    · rename_i name last
      obtain ⟨isPiece, some⟩ := List.mem_filter.mp (List.mem_of_mem_getLast? last)
      obtain ⟨noSeparator, inPath⟩ := chars_of_mem_pieces isPiece
      have plainName : '\x00' ∉ name.toList := fun member =>
        absurd (List.contains_iff_mem.mpr (inPath _ member)) (by rw [plain]; decide)
      split at written
      · cases written
      · split at written
        · cases written
        · exact isWellFormed_writeAt formed (by simpa using some) ⟨noSeparator, plainName⟩ written

end Workspace

/-! ### The way down -/

/-- A path, of whatever length, leads step by step to an entry. -/
def Workspace.LeadsTo (workspace : Workspace) (path : String) (entry : Node) : Prop :=
  IsSpelled path ∧
    ∃ location, workspace.follow (workspace.start path) (steps path) = .ok location ∧
      workspace.nodeAt? location = some entry

/-- Names lead from one entry down to another. -/
def Node.LeadsDown (entry : Node) (names : List String) (below : Node) : Prop :=
  names ≠ [] ∧ (∀ name ∈ names, IsName name) ∧ entry.at? names = some below

namespace Path

theorem IsName.relative {name : String} (named : IsName name) : isAbsolute name = false := by
  rw [isAbsolute, beq_eq_false_iff_ne]
  exact fun opens => named.free.1 (List.mem_of_mem_head? opens)

theorem IsName.pieces {name : String} (named : IsName name) : pieces name = [name] := by
  have solid : ∀ c ∈ name.toList, (c == '/') = false := fun c member =>
    beq_eq_false_iff_ne.mpr (ne_of_mem_of_not_mem member named.free.1)
  rw [Path.pieces, Text.splitOnChar, Text.splitWhere_of_free solid, List.map_singleton,
    String.ofList_toList]

theorem IsName.steps {name : String} (named : IsName name) : steps name = [name] := by
  have open? : endsWithSeparator name = false := by
    rw [endsWithSeparator, beq_eq_false_iff_ne]
    exact fun ends => named.free.1 (List.mem_of_mem_getLast? ends)
  rw [Path.steps, named.pieces, open?]
  simp [named.some]

theorem filter_pieces_foldl_join {names : List String} (named : ∀ name ∈ names, IsName name)
    (path : String) :
    (Path.pieces (names.foldl join path)).filter (fun piece => !piece.isEmpty) =
      (Path.pieces path).filter (fun piece => !piece.isEmpty) ++ names := by
  induction names generalizing path with
  | nil => rw [List.foldl_nil, List.append_nil]
  | cons name rest inductionHypothesis =>
    obtain ⟨isName, restNamed⟩ := List.forall_mem_cons.mp named
    rw [List.foldl_cons, inductionHypothesis restNamed, filter_pieces_join _ isName.relative,
      isName.pieces]
    simp [isName.some]

theorem steps_foldl_join {names : List String} (some : names ≠ [])
    (named : ∀ name ∈ names, IsName name) (path : String) :
    Path.steps (names.foldl join path) =
      (Path.pieces path).filter (fun piece => !piece.isEmpty) ++ names := by
  obtain ⟨front, last, rfl⟩ := List.eq_nil_or_concat' names |>.resolve_left some
  obtain ⟨frontNamed, lastNamed⟩ := List.forall_mem_append.mp named
  have isName : IsName last := lastNamed last (List.mem_singleton_self last)
  rw [List.foldl_append, List.foldl_cons, List.foldl_nil, steps_join _ isName.relative isName.some,
    filter_pieces_foldl_join frontNamed, isName.steps, List.append_assoc]

theorem isSpelled_foldl_join {names : List String} (named : ∀ name ∈ names, IsName name)
    {path : String} (spelled : IsSpelled path) : IsSpelled (names.foldl join path) := by
  induction names generalizing path with
  | nil => exact spelled
  | cons name rest inductionHypothesis =>
    obtain ⟨isName, restNamed⟩ := List.forall_mem_cons.mp named
    refine inductionHypothesis restNamed ⟨join_ne_empty spelled.1 name, ?_⟩
    rw [contains_join (by decide) spelled.2, List.contains_eq_mem]
    exact decide_eq_false isName.free.2

end Path

/-! ### Following names -/

namespace Workspace

variable {workspace : Workspace}

/-- Names that lead down from an entry are the steps to take. -/
theorem follow_of_leadsDown {location names : List String} {entry below : Node}
    (here : workspace.nodeAt? location = some entry) (down : entry.LeadsDown names below) :
    workspace.follow location names = .ok (location ++ names) ∧
      workspace.nodeAt? (location ++ names) = some below := by
  obtain ⟨-, named, found⟩ := down
  refine ⟨?_, by rw [nodeAt?, Node.at?_append, ← nodeAt?, here]; exact found⟩
  induction names generalizing location entry with
  | nil => rw [follow, List.append_nil]
  | cons name rest inductionHypothesis =>
    obtain ⟨isName, restNamed⟩ := List.forall_mem_cons.mp named
    cases entry with
    | file bytes | special => cases found
    | folder inside =>
      rw [Node.at?] at found
      cases entered : inside.find? name with
      | none => rw [entered] at found; cases found
      | some next =>
        rw [entered] at found
        have stepped : workspace.step location name = .ok (location ++ [name]) := by
          rw [step, here]
          simp [isName.away.1, isName.away.2, Nat.not_lt.mpr isName.fits, entered]
        have there : workspace.nodeAt? (location ++ [name]) = some next :=
          (nodeAt?_concat here name).trans entered
        rw [follow, stepped]
        simp only
        rw [inductionHypothesis there restNamed found, List.append_assoc, List.singleton_append]

/-- A path is found exactly if it leads to an entry and is not too long. -/
theorem find_eq_ok_iff {path : String} {entry : Node} :
    workspace.find path = .ok entry ↔
      workspace.LeadsTo path entry ∧ path.utf8ByteSize ≤ longestPath := by
  unfold LeadsTo
  rw [and_right_comm, ← checkPath_eq_ok_iff]
  simp only [find, locate, bind, Except.bind]
  cases checkPath path with
  | error fault => exact iff_of_false nofun (by rintro ⟨⟨⟩, _⟩)
  | ok _ =>
    cases workspace.follow (workspace.start path) (steps path) with
    | error fault => exact iff_of_false nofun (by rintro ⟨-, _, ⟨⟩, _⟩)
    | ok location =>
      have there : (∃ other, Except.ok location = (.ok other : Except FileFault _) ∧
          workspace.nodeAt? other = some entry) ↔ workspace.nodeAt? location = some entry :=
        ⟨by rintro ⟨_, ⟨⟩, found⟩; exact found, fun found => ⟨location, rfl, found⟩⟩
      rw [there, and_iff_right rfl]
      dsimp only
      cases workspace.nodeAt? location with
      | none => exact iff_of_false nofun nofun
      | some other =>
        exact ⟨by rintro ⟨⟩; rfl, by rintro ⟨⟩; rfl⟩

end Workspace

end DocEntities
