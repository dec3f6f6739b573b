/-
This file compares what is found from a directory with what is found from another one below it,
behind the way up. A path behind that way leads to the same entry, so every step of a search
commutes with putting the way in front of what was found: entering a directory, taking a step of
a pattern, and so a whole pattern. Two things can come between. A path may become too long for
the disk, so the paths about which it is asked are listed; and the place itself is left out in
front of a path while the way up is not, so a pattern has to lead away from it at once.
-/

import DocEntities.Proofs.Glob
import DocEntities.Scan
import Mathlib.Data.List.Induction

namespace DocEntities

open DocEntities.Path

/-! ### Places on a disk -/

/-- A run that works at a place of a disk. -/
abbrev Directory.openedAt (disk : Directory) (location : List String) : Workspace :=
  ⟨disk, location⟩

/-- A place of a disk is a directory. -/
def Directory.IsFolderAt (disk : Directory) (location : List String) : Prop :=
  ∃ inside, (Node.folder disk).at? location = some (.folder inside)

theorem Node.at?_append (entry : Node) (first second : List String) :
    entry.at? (first ++ second) = (entry.at? first).bind (Node.at? second) := by
  induction first generalizing entry with
  | nil => rfl
  | cons name rest inductionHypothesis =>
    cases entry with
    | file bytes => rfl
    | special => rfl
    | folder inside =>
      rw [List.cons_append, Node.at?, Node.at?]
      cases inside.find? name with
      | none => rfl
      | some next => exact inductionHypothesis next

/-- What stands above a directory is a directory. -/
theorem Directory.IsFolderAt.above {disk : Directory} {above below : List String}
    (folder : disk.IsFolderAt (above ++ below)) : disk.IsFolderAt above := by
  obtain ⟨inside, found⟩ := folder
  rw [Node.at?_append, Option.bind_eq_some_iff] at found
  obtain ⟨entry, foundAbove, rest⟩ := found
  cases entry with
  | folder outer => exact ⟨outer, foundAbove⟩
  | file bytes | special =>
    cases below with
    | nil => cases rest
    | cons name more => cases rest

namespace Workspace

section Follow

variable {disk : Directory}

theorem follow_openedAt (first second : List String) (location pieces : List String) :
    (disk.openedAt first).follow location pieces =
      (disk.openedAt second).follow location pieces := by
  induction pieces generalizing location with
  | nil => rfl
  | cons piece rest inductionHypothesis =>
    have same : (disk.openedAt first).step location piece =
      (disk.openedAt second).step location piece := rfl
    rw [follow, follow, same]
    cases (disk.openedAt second).step location piece with
    | error fault => rfl
    | ok next => exact inductionHypothesis next

/-- As many steps up as there are levels lead back to the directory above. -/
theorem follow_climb (here above below rest : List String)
    (folder : disk.IsFolderAt (above ++ below)) :
    (disk.openedAt here).follow (above ++ below) (List.replicate below.length ".." ++ rest) =
      (disk.openedAt here).follow above rest := by
  induction below using List.reverseRecOn with
  | nil => rw [List.append_nil, List.length_nil, List.replicate_zero, List.nil_append]
  | append_singleton below name inductionHypothesis =>
    have up : (disk.openedAt here).step (above ++ (below ++ [name])) ".." =
        .ok (above ++ below) := by
      obtain ⟨inside, found⟩ := folder
      rw [step, nodeAt?, found, ← List.append_assoc]
      simp
    rw [← List.append_assoc] at folder
    rw [List.length_append, List.length_singleton, List.replicate_succ, List.cons_append, follow,
      up]
    exact inductionHypothesis folder.above

end Follow

/-! ### Finding entries -/

/-- A path that is not empty, and that the disk still takes behind the way up a number of
levels. -/
def FitsBehind (levels : Nat) (path : String) : Prop :=
  path ≠ "" ∧ (join (climb levels) path).utf8ByteSize ≤ longestPath

instance (levels : Nat) (path : String) : Decidable (FitsBehind levels path) :=
  inferInstanceAs (Decidable (_ ∧ _))

theorem fits_iff {path : String} : fits path = true ↔ path.utf8ByteSize ≤ longestPath :=
  decide_eq_true_iff

/-- A path that fits behind the way up fits with it in front and without it. -/
theorem FitsBehind.both {levels : Nat} {path : String} (behind : FitsBehind levels path) :
    fits (join (climb levels) path) = true ∧ fits path = true := by
  have whole := behind.2
  refine ⟨fits_iff.mpr whole, fits_iff.mpr (Nat.le_trans ?_ whole)⟩
  cases absolute : isAbsolute path with
  | true => rw [join_of_isAbsolute _ absolute]
  | false =>
    rw [join_of_relative _ absolute, String.utf8ByteSize_append]
    omega

theorem FitsBehind.fits_eq {levels : Nat} {path : String} (behind : FitsBehind levels path) :
    fits (join (climb levels) path) = fits path :=
  behind.both.1.trans behind.both.2.symm

section Find

variable {disk : Directory} {above below : List String}

theorem find_of_isAbsolute (first second : List String) {path : String}
    (absolute : isAbsolute path = true) :
    (disk.openedAt first).find path = (disk.openedAt second).find path := by
  have same : (disk.openedAt first).locate path = (disk.openedAt second).locate path := by
    unfold locate start
    rw [if_pos absolute, if_pos absolute]
    simp only [follow_openedAt first second]
  unfold find
  rw [same]
  rfl

theorem checkPath_join_climb {levels : Nat} {path : String} (relative : isAbsolute path = false)
    (fits : FitsBehind levels path) : checkPath (join (climb levels) path) = checkPath path := by
  have free := contains_climb (show '\x00' ≠ '.' by decide) (by decide) levels
  have whole : join (climb levels) path ≠ "" := by
    rw [join_of_relative _ relative, Ne, String.append_eq_empty_iff]
    exact fun both => fits.1 both.2
  unfold checkPath
  rw [contains_join (by decide) free, String.isEmpty_eq_false_iff.mpr fits.1,
    String.isEmpty_eq_false_iff.mpr whole, fits.fits_eq]

/-- From below, a path behind the way up leads to what it leads to from above. -/
theorem find_join_climb (folder : disk.IsFolderAt (above ++ below)) {path : String}
    (fits : FitsBehind below.length path) :
    (disk.openedAt (above ++ below)).find (join (climb below.length) path) =
      (disk.openedAt above).find path := by
  cases absolute : isAbsolute path with
  | true =>
    rw [join_of_isAbsolute _ absolute]
    exact find_of_isAbsolute _ _ absolute
  | false =>
    have notTop : isAbsolute (join (climb below.length) path) = false := by
      rw [isAbsolute_join_of_relative absolute, isAbsolute_climb]
    have same : (disk.openedAt (above ++ below)).locate (join (climb below.length) path) =
        (disk.openedAt above).locate path := by
      unfold locate start
      rw [checkPath_join_climb absolute fits, notTop, absolute, steps_join _ absolute fits.1,
        filter_pieces_climb]
      simp only [Bool.false_eq_true, if_false]
      rw [follow_climb _ _ _ _ folder, follow_openedAt _ above]
    unfold find
    rw [same]
    rfl

end Find

end Workspace

/-! ### What was found, behind a way -/

/-- What was found, behind a way to where it was found from. -/
def Located.behind (way : String) (found : Located) : Located :=
  ⟨join way found.path, found.entry⟩

namespace Directory

/-- A directory is empty or has a first entry, or it cannot be listed from here on. -/
theorem consInduction {motive : Directory → Prop} (empty : motive .empty)
    (cons : ∀ name entry rest, (∀ inside, entry = .folder inside → motive inside) → motive rest →
      motive (cons name entry rest))
    (unlisted : ∀ reason rest, motive rest → motive (.unlisted reason rest)) :
    ∀ directory, motive directory
  | .empty => empty
  | .file name bytes rest =>
    cons name (.file bytes) rest nofun (consInduction empty cons unlisted rest)
  | .folder name inside rest =>
    cons name (.folder inside) rest
      (fun _ same => Node.folder.inj same ▸ consInduction empty cons unlisted inside)
      (consInduction empty cons unlisted rest)
  | .special name rest => cons name .special rest nofun (consInduction empty cons unlisted rest)
  | .unlisted reason rest => unlisted reason rest (consInduction empty cons unlisted rest)

theorem children_cons (path name : String) (entry : Node) (rest : Directory) :
    (cons name entry rest).children path = ⟨join path name, entry⟩ :: rest.children path := by
  cases entry <;> rfl

theorem descendants_cons (path name : String) (entry : Node) (rest : Directory) :
    (cons name entry rest).descendants path =
      (⟨join path name, entry⟩ : Located).tree ++ rest.descendants path := by
  cases entry <;> rfl

end Directory

/-- Putting a way in front of the path of a directory makes no difference to whether the path is
short enough. -/
def Located.FitsAlike (way : String) (found : Located) : Prop :=
  found.isFolder = true → Workspace.fits (join way found.path) = Workspace.fits found.path

namespace Located

variable {way : String}

theorem below_of_fits (found : Located) {inside : Directory}
    (isInside : found.entry = .folder inside) (short : Workspace.fits found.path = true) :
    found.below = inside.descendants found.path := by
  rw [below, isInside]
  exact if_pos short

theorem FitsAlike.fault?_behind {found : Located} (alike : found.FitsAlike way) :
    (found.behind way).fault? = found.fault? := by
  obtain ⟨path, entry⟩ := found
  cases entry with
  | file bytes | special => rfl
  | folder inside => simp only [fault?, behind, alike rfl]

/-- A tree stands behind a way if its top does and what is in it does. -/
theorem FitsAlike.tree_behind {found : Located} (alike : found.FitsAlike way)
    (within : ∀ inside, found.entry = .folder inside → Workspace.fits found.path = true →
      inside.descendants (join way found.path) =
        (inside.descendants found.path).map (Located.behind way)) :
    (found.behind way).tree = found.tree.map (Located.behind way) := by
  obtain ⟨path, entry⟩ := found
  cases entry with
  | file bytes | special => rfl
  | folder inside =>
    simp only [tree, below, behind, alike rfl, List.map_cons]
    split
    · rename_i short
      rw [within inside rfl short]
    · rfl

end Located

namespace Directory

variable {way path other : String}

theorem children_behind (leads : ∀ name, join other name = join way (join path name))
    (inside : Directory) :
    inside.children other = (inside.children path).map (Located.behind way) := by
  induction inside using consInduction with
  | empty => rfl
  | unlisted reason rest _ => rfl
  | cons name entry rest _ inductionHypothesis =>
    rw [children_cons, children_cons, List.map_cons, inductionHypothesis, leads]
    rfl

/-- What is met in a directory is met behind a way too, as long as no directory that would be met in
both places has a path that is too long in one of them alone. -/
theorem descendants_behind (leads : ∀ name, join other name = join way (join path name))
    (inside : Directory)
    (alike : ∀ found ∈ inside.descendants path, found.behind way ∈ inside.descendants other →
      found.FitsAlike way) :
    inside.descendants other = (inside.descendants path).map (Located.behind way) := by
  induction inside using consInduction generalizing path other with
  | empty => rfl
  | unlisted reason rest _ => rfl
  | cons name entry rest insideHypothesis restHypothesis =>
    rw [descendants_cons, descendants_cons, leads] at alike
    let first : Located := ⟨join path name, entry⟩
    have alikeFirst : first.FitsAlike way :=
      alike first (List.mem_append_left _ List.mem_cons_self)
        (List.mem_append_left _ List.mem_cons_self)
    have alikeRest : ∀ found ∈ rest.descendants path,
        found.behind way ∈ rest.descendants other → found.FitsAlike way :=
      fun found member behind =>
        alike found (List.mem_append_right _ member) (List.mem_append_right _ behind)
    have firstTree := alikeFirst.tree_behind fun inside isInside short => by
      refine insideHypothesis inside isInside (join_assoc way first.path) fun found met behind => ?_
      have isFolder : first.isFolder = true := by rw [Located.isFolder, isInside]; rfl
      have here := first.below_of_fits isInside short
      have there := (first.behind way).below_of_fits isInside ((alikeFirst isFolder).trans short)
      exact alike found (List.mem_append_left _ (List.mem_cons_of_mem _ (here ▸ met)))
        (List.mem_append_left _ (List.mem_cons_of_mem _ (there ▸ behind)))
    rw [descendants_cons, descendants_cons, List.map_append, ← firstTree,
      restHypothesis leads alikeRest, leads]
    rfl

end Directory

namespace Located

variable {way : String}

theorem tree_behind {found : Located} (alike : ∀ met ∈ found.tree, met.FitsAlike way) :
    (found.behind way).tree = found.tree.map (Located.behind way) := by
  refine (alike found List.mem_cons_self).tree_behind fun inside isInside short => ?_
  refine Directory.descendants_behind (join_assoc way found.path) inside fun met member _ => ?_
  refine alike met (List.mem_cons_of_mem _ ?_)
  rwa [found.below_of_fits isInside short]

/-- One entry was found in two ways, so that everything in it is behind a way in one of them. -/
structure StandsBehind (way : String) (found other : Located) : Prop where
  entry : other.entry = found.entry
  leads : ∀ name, join other.base name = join way (join found.base name)
  alike : found.isFolder = true → Workspace.fits other.path = Workspace.fits found.path

theorem StandsBehind.children {found other : Located} (behind : StandsBehind way found other) :
    other.children = found.children.map (Located.behind way) := by
  unfold Located.children
  rw [behind.entry]
  cases isEntry : found.entry with
  | file bytes | special => rfl
  | folder inside =>
    simp only [behind.alike (by rw [isFolder, isEntry]; rfl)]
    split
    · exact Directory.children_behind behind.leads inside
    · rfl

theorem StandsBehind.descendants {found other : Located} (behind : StandsBehind way found other)
    (alike : ∀ met ∈ found.descendants, met.FitsAlike way) :
    other.descendants = found.descendants.map (Located.behind way) := by
  unfold Located.descendants at alike ⊢
  rw [behind.entry]
  cases isEntry : found.entry with
  | file bytes | special => rfl
  | folder inside =>
    simp only [behind.alike (by rw [isFolder, isEntry]; rfl)]
    rw [isEntry] at alike
    split
    · rename_i short
      simp only [short, if_true] at alike
      exact Directory.descendants_behind behind.leads inside fun met member _ => alike met member
    · rfl

theorem filter_isFolder_behind (all : List Located) :
    (all.map (Located.behind way)).filter isFolder =
      (all.filter isFolder).map (Located.behind way) := by
  rw [List.filter_map]
  rfl

theorem isReachedBy_behind (nameless : fileName? way = none) (step : Glob.Step) (found : Located) :
    isReachedBy step (found.behind way) = isReachedBy step found := by
  unfold isReachedBy behind
  rw [fileName?_join nameless]

theorem filter_isReachedBy_behind (nameless : fileName? way = none) (step : Glob.Step)
    (all : List Located) :
    (all.map (Located.behind way)).filter (isReachedBy step) =
      (all.filter (isReachedBy step)).map (Located.behind way) := by
  rw [List.filter_map]
  refine congrArg (List.map _) (List.filter_congr fun found _ => ?_)
  exact isReachedBy_behind nameless step found

theorem leadsAway_of_isReachedBy {step : Glob.Step} {found : Located}
    (reached : isReachedBy step found = true) : LeadsAway found.path := by
  unfold isReachedBy at reached
  cases named : fileName? found.path with
  | none => rw [named] at reached; cases reached
  | some name => exact leadsAway_of_fileName? named

end Located

/-! ### Steps of a pattern -/

namespace Workspace

/-- The paths about which the disk is asked for the directory itself and the one above. -/
def dottedPaths (glob : Glob) (found : Located) : List String :=
  if glob.startsWithDot && found.fault?.isNone then
    (["..", "."].filter glob.accepts).map (join found.path) else []

/-- The paths of the directories among what was found. -/
def folderPaths (all : List Located) : List String :=
  (all.filter Located.isFolder).map Located.path

/-- The paths about which the disk is asked while steps are taken from what was found: those that
are looked up, and those of the directories that are listed. -/
def consulted (workspace : Workspace) : List Glob.Step → Located → List String
  | [] => fun _ => []
  | .name text :: rest => fun found =>
    join found.base text ::
      (workspace.visited (join found.base text)).flatMap (workspace.consulted rest)
  | .matching glob :: rest => fun found =>
    folderPaths [found] ++ (dottedPaths glob found ++ (workspace.dotted glob found ++
      found.children.filter (Located.isReachedBy (.matching glob))).flatMap
        (workspace.consulted rest))
  | [.anyDepth] => fun found => folderPaths (found :: found.descendants)
  | .anyDepth :: .anyDepth :: rest => workspace.consulted (.anyDepth :: rest)
  | .anyDepth :: next :: rest => fun found =>
    folderPaths (found :: found.descendants) ++
      (found.descendants.filter (Located.isReachedBy next)).flatMap (workspace.consulted rest)

theorem fitsAlike_of_folderPaths {levels : Nat} {all : List Located}
    (fits : ∀ path ∈ folderPaths all, FitsBehind levels path) :
    ∀ found ∈ all, found.FitsAlike (climb levels) := fun found member isFolder =>
  (fits found.path (List.mem_map_of_mem (List.mem_filter.mpr ⟨member, isFolder⟩))).fits_eq

theorem dotted_eq (workspace : Workspace) (glob : Glob) (found : Located) :
    workspace.dotted glob found = (dottedPaths glob found).flatMap workspace.visited := by
  unfold dotted dottedPaths
  split
  · rw [List.flatMap_map]
  · rfl

theorem path_of_mem_visited {workspace : Workspace} {path : String} {found : Located}
    (member : found ∈ workspace.visited path) : found.path = path := by
  unfold visited visit at member
  cases result : workspace.find path with
  | error fault => rw [result] at member; cases member
  | ok entry =>
    rw [result] at member
    rw [List.mem_singleton.mp member]

section Reach

variable {disk : Directory} {above below : List String}

theorem visited_behind (folder : disk.IsFolderAt (above ++ below)) {path : String}
    (fits : FitsBehind below.length path) :
    (disk.openedAt (above ++ below)).visited (join (climb below.length) path) =
      ((disk.openedAt above).visited path).map (Located.behind (climb below.length)) := by
  unfold visited visit
  rw [find_join_climb folder fits]
  cases (disk.openedAt above).find path <;> rfl

theorem base_of_leadsAway {found : Located} (away : LeadsAway found.path) :
    found.base = found.path := by
  rw [Located.base, away.2]
  rfl

theorem base_behind (levels : Nat) {found : Located} (away : LeadsAway found.path) :
    (found.behind (climb levels)).base = join (climb levels) found.path := by
  refine base_of_leadsAway ?_
  cases levels with
  | zero =>
    rw [Located.behind, climb_zero, join_empty]
    exact away
  | succ levels => exact (leadsAway_climb levels).join found.path

/-- Searching below several places, each of which is behind a way, is searching below them and
putting everything behind it. -/
theorem flatMap_behind {way : String} {all : List Located} {search other : Located → List Located}
    (same : ∀ found ∈ all, other (found.behind way) = (search found).map (Located.behind way)) :
    (all.map (Located.behind way)).flatMap other =
      (all.flatMap search).map (Located.behind way) := by
  rw [List.flatMap_map, List.map_flatMap]
  exact List.flatMap_congr same

theorem standsBehind_behind {levels : Nat} {found : Located} (away : LeadsAway found.path)
    (alike : found.FitsAlike (climb levels)) :
    Located.StandsBehind (climb levels) found (found.behind (climb levels)) where
  entry := rfl
  leads name := by rw [base_behind levels away, base_of_leadsAway away, join_assoc]
  alike := alike

theorem dottedPaths_behind {way : String} (glob : Glob) {found : Located}
    (alike : found.FitsAlike way) :
    dottedPaths glob (found.behind way) = (dottedPaths glob found).map (join way) := by
  unfold dottedPaths
  rw [alike.fault?_behind]
  split
  · rw [List.map_map]
    refine List.map_congr_left fun piece _ => ?_
    exact join_assoc way found.path piece
  · rfl

theorem leadsAway_of_mem_dottedPaths {glob : Glob} {found : Located} (away : LeadsAway found.path)
    {path : String} (member : path ∈ dottedPaths glob found) : LeadsAway path := by
  unfold dottedPaths at member
  split at member
  · obtain ⟨piece, -, rfl⟩ := List.mem_map.mp member
    exact away.join piece
  · cases member

theorem dotted_behind (folder : disk.IsFolderAt (above ++ below)) {glob : Glob} {found : Located}
    (alike : found.FitsAlike (climb below.length))
    (fits : ∀ path ∈ dottedPaths glob found, FitsBehind below.length path) :
    (disk.openedAt (above ++ below)).dotted glob (found.behind (climb below.length)) =
      ((disk.openedAt above).dotted glob found).map (Located.behind (climb below.length)) := by
  rw [dotted_eq, dotted_eq, dottedPaths_behind glob alike, List.flatMap_map, List.map_flatMap]
  refine List.flatMap_congr fun path member => ?_
  exact visited_behind folder (fits path member)

/-- What a step with wildcards leads to leads away, if what it was taken from does. -/
theorem leadsAway_of_mem_dotted {workspace : Workspace} {glob : Glob} {found next : Located}
    (away : LeadsAway found.path)
    (member : next ∈ workspace.dotted glob found ++
      found.children.filter (Located.isReachedBy (.matching glob))) : LeadsAway next.path := by
  rcases List.mem_append.mp member with dot | child
  · rw [dotted_eq, List.mem_flatMap] at dot
    obtain ⟨path, listed, visited⟩ := dot
    rw [path_of_mem_visited visited]
    exact leadsAway_of_mem_dottedPaths away listed
  · exact Located.leadsAway_of_isReachedBy (List.mem_filter.mp child).2

/-- From what leads away, the steps of a pattern lead to the same entries behind the way up. -/
theorem reach_behind (folder : disk.IsFolderAt (above ++ below)) (steps : List Glob.Step)
    {found : Located} (away : LeadsAway found.path)
    (fits : ∀ path ∈ (disk.openedAt above).consulted steps found, FitsBehind below.length path) :
    (disk.openedAt (above ++ below)).reach steps (found.behind (climb below.length)) =
      ((disk.openedAt above).reach steps found).map (Located.behind (climb below.length)) := by
  have nameless := fileName?_climb below.length
  -- By the steps of the search. What was found leads away before each of them, so its path stands
  -- in front of what is found next, in both directories.
  induction steps using Workspace.reach.induct generalizing found with
  | case1 => rfl
  | case2 text rest inductionHypothesis =>
    rw [consulted, List.forall_mem_cons] at fits
    have awayNext := away.join text
    rw [base_of_leadsAway away] at fits
    rw [reach, reach]
    beta_reduce
    rw [base_behind _ away, base_of_leadsAway away, join_assoc,
      visited_behind folder fits.1]
    refine flatMap_behind fun next member => inductionHypothesis ?_ ?_
    · rw [path_of_mem_visited member]
      exact awayNext
    · exact fun path inside => fits.2 path (List.mem_flatMap.mpr ⟨next, member, inside⟩)
  | case3 glob rest inductionHypothesis =>
    rw [consulted, List.forall_mem_append, List.forall_mem_append] at fits
    obtain ⟨listed, dots, later⟩ := fits
    have alike := fitsAlike_of_folderPaths listed found (List.mem_singleton_self found)
    rw [reach, reach]
    beta_reduce
    rw [(standsBehind_behind away alike).children,
      Located.filter_isReachedBy_behind nameless,
      dotted_behind folder alike dots, ← List.map_append]
    refine flatMap_behind fun next member => inductionHypothesis ?_ ?_
    · exact leadsAway_of_mem_dotted away member
    · exact fun path inside => later path (List.mem_flatMap.mpr ⟨next, member, inside⟩)
  | case4 =>
    rw [consulted] at fits
    obtain ⟨alike, alikeBelow⟩ := List.forall_mem_cons.mp (fitsAlike_of_folderPaths fits)
    rw [reach, reach]
    beta_reduce
    rw [(standsBehind_behind away alike).descendants alikeBelow, Located.filter_isFolder_behind]
  | case5 rest inductionHypothesis =>
    rw [consulted] at fits
    rw [reach, reach]
    exact inductionHypothesis away fits
  | case6 next rest other inductionHypothesis =>
    rw [consulted] at fits
    · rw [List.forall_mem_append] at fits
      obtain ⟨alike, alikeBelow⟩ := List.forall_mem_cons.mp (fitsAlike_of_folderPaths fits.1)
      rw [reach, reach]
      · beta_reduce
        rw [(standsBehind_behind away alike).descendants alikeBelow,
          Located.filter_isReachedBy_behind nameless]
        refine flatMap_behind fun next member => inductionHypothesis ?_ ?_
        · exact Located.leadsAway_of_isReachedBy (List.mem_filter.mp member).2
        · exact fun path inside => fits.2 path (List.mem_flatMap.mpr ⟨next, member, inside⟩)
      · exact other
      · exact other
    · exact other

theorem reach_all_behind (folder : disk.IsFolderAt (above ++ below)) {steps : List Glob.Step}
    {all : List Located} (away : ∀ found ∈ all, LeadsAway found.path)
    (fits : ∀ path ∈ all.flatMap ((disk.openedAt above).consulted steps),
      FitsBehind below.length path) :
    (all.map (Located.behind (climb below.length))).flatMap
        ((disk.openedAt (above ++ below)).reach steps) =
      (all.flatMap ((disk.openedAt above).reach steps)).map
        (Located.behind (climb below.length)) := by
  refine flatMap_behind fun found member => reach_behind folder steps (away found member) ?_
  exact fun path inside => fits path (List.mem_flatMap.mpr ⟨found, member, inside⟩)

end Reach

end Workspace

/-! ### Whole patterns -/

/-- Whether a step that is taken first leads away from where it is taken. -/
def Glob.Step.setsOut : Glob.Step → Bool
  | .name text => !isHere text
  | .matching glob => !(glob.startsWithDot && (glob.accepts "." || glob.accepts ".."))
  | .anyDepth => true

/-- Whether steps lead away from where they are taken with the first of them. -/
def Glob.setsOut : List Glob.Step → Bool
  | [] => false
  | first :: _ => first.setsOut

namespace Workspace

section Expand

variable {disk : Directory} {above below : List String}

theorem base_here (entry : Node) : (⟨".", entry⟩ : Located).base = "" :=
  if_pos (show isHere "." = true by decide)

theorem standsBehind_here {levels : Nat} (fits : FitsBehind (levels + 1) ".") (entry : Node) :
    Located.StandsBehind (climb (levels + 1)) ⟨".", entry⟩ ⟨climb (levels + 1), entry⟩ where
  entry := rfl
  leads name := by
    rw [@base_of_leadsAway ⟨climb (levels + 1), entry⟩ (leadsAway_climb levels), base_here,
      join_empty]
  alike _ := by
    have short : Workspace.fits (climb (levels + 1)) = true :=
      fits_iff.mpr (Nat.le_trans (utf8ByteSize_le_join _ rfl) fits.2)
    rw [short, fits.both.2]

theorem dotted_of_setsOut {workspace : Workspace} {glob : Glob}
    (away : (Glob.Step.matching glob).setsOut = true) (found : Located) :
    workspace.dotted glob found = [] := by
  rw [Glob.Step.setsOut] at away
  unfold dotted
  split
  · rename_i dot
    rw [(Bool.and_eq_true_iff.mp dot).1, Bool.true_and, Bool.not_eq_true',
      Bool.or_eq_false_iff] at away
    rw [List.filter_cons_of_neg (by rw [away.2]; exact Bool.false_ne_true),
      List.filter_cons_of_neg (by rw [away.1]; exact Bool.false_ne_true)]
    rfl
  · rfl

/-- Steps that set out lead from the end of the way up to what they lead to from the place
itself. -/
theorem reach_from_here {name : String} (folder : disk.IsFolderAt (above ++ name :: below))
    (inside : Directory) {steps : List Glob.Step} (away : Glob.setsOut steps = true)
    (here : FitsBehind (name :: below).length ".")
    (fits : ∀ path ∈ (disk.openedAt above).consulted steps ⟨".", .folder inside⟩,
      FitsBehind (name :: below).length path) :
    (disk.openedAt (above ++ name :: below)).reach steps
        ⟨climb (name :: below).length, .folder inside⟩ =
      ((disk.openedAt above).reach steps ⟨".", .folder inside⟩).map
        (Located.behind (climb (name :: below).length)) := by
  have nameless := fileName?_climb (name :: below).length
  have base := @base_of_leadsAway ⟨climb (name :: below).length, .folder inside⟩
    (leadsAway_climb below.length)
  -- From the place itself nothing stands in front of what is found, so `reach_behind` does not
  -- apply to the first step. It does to the others.
  have behind := standsBehind_here here (.folder inside)
  rw [← @List.length_cons _ name] at behind
  induction steps using Workspace.reach.induct with
  | case1 => cases away
  | case2 text rest _ =>
    rw [Glob.setsOut, Glob.Step.setsOut, Bool.not_eq_true'] at away
    rw [consulted, List.forall_mem_cons, base_here, join_empty] at fits
    rw [reach, reach]
    beta_reduce
    rw [base, base_here, join_empty, visited_behind folder fits.1]
    refine reach_all_behind folder (fun found member => ?_) fits.2
    rw [path_of_mem_visited member]
    exact ⟨fits.1.1, away⟩
  | case3 glob rest _ =>
    rw [consulted, List.forall_mem_append, List.forall_mem_append, dotted_of_setsOut away,
      List.nil_append] at fits
    rw [reach, reach]
    beta_reduce
    rw [dotted_of_setsOut away, dotted_of_setsOut away, List.nil_append, List.nil_append,
      behind.children, Located.filter_isReachedBy_behind nameless]
    refine reach_all_behind folder (fun found member => ?_) fits.2.2
    exact Located.leadsAway_of_isReachedBy (List.mem_filter.mp member).2
  | case4 =>
    rw [consulted] at fits
    obtain ⟨-, alikeBelow⟩ := List.forall_mem_cons.mp (fitsAlike_of_folderPaths fits)
    rw [reach, reach]
    beta_reduce
    rw [behind.descendants alikeBelow, Located.filter_isFolder_behind]
  | case5 rest inductionHypothesis =>
    rw [consulted] at fits
    rw [reach, reach]
    exact inductionHypothesis rfl fits
  | case6 next rest other _ =>
    rw [consulted] at fits
    · rw [List.forall_mem_append] at fits
      obtain ⟨-, alikeBelow⟩ := List.forall_mem_cons.mp (fitsAlike_of_folderPaths fits.1)
      rw [reach, reach]
      · beta_reduce
        rw [behind.descendants alikeBelow, Located.filter_isReachedBy_behind nameless]
        refine reach_all_behind folder (fun found member => ?_) fits.2
        exact Located.leadsAway_of_isReachedBy (List.mem_filter.mp member).2
      · exact other
      · exact other
    · exact other

theorem visited_of_locate {workspace : Workspace} {path : String} {location : List String}
    {entry : Node} (located : workspace.locate path = .ok location)
    (found : workspace.nodeAt? location = some entry) :
    workspace.visited path = [⟨path, entry⟩] := by
  have reached : workspace.find path = .ok entry := by
    unfold find
    rw [located]
    simp only [bind, Except.bind, found]
    rfl
  unfold visited visit
  rw [reached]
  rfl

theorem visited_here {inside : Directory}
    (found : (Node.folder disk).at? above = some (.folder inside)) :
    (disk.openedAt above).visited "." = [⟨".", .folder inside⟩] := by
  have stays : (disk.openedAt above).locate "." = .ok above := by
    show (disk.openedAt above).follow above ["."] = _
    rw [follow, step, nodeAt?, found]
    simp [follow]
  exact visited_of_locate stays found

/-- One step up leads to the directory above. -/
theorem visited_up {name : String} (folder : disk.IsFolderAt (above ++ [name]))
    {inside : Directory} (outer : (Node.folder disk).at? above = some (.folder inside)) :
    (disk.openedAt (above ++ [name])).visited ".." = [⟨"..", .folder inside⟩] := by
  obtain ⟨own, found⟩ := folder
  have leaves : (disk.openedAt (above ++ [name])).locate ".." = .ok above := by
    show (disk.openedAt (above ++ [name])).follow (above ++ [name]) [".."] = _
    rw [follow, step, nodeAt?, found]
    simp [follow]
  exact visited_of_locate leaves outer

/-- The way up leads to the directory above. -/
theorem visited_climb {name : String} (folder : disk.IsFolderAt (above ++ name :: below))
    {inside : Directory} (outer : (Node.folder disk).at? above = some (.folder inside))
    (fits : (climb (name :: below).length).utf8ByteSize ≤ longestPath) :
    (disk.openedAt (above ++ name :: below)).visited (climb (name :: below).length) =
      [⟨climb (name :: below).length, .folder inside⟩] := by
  rw [List.append_cons] at folder ⊢
  rw [List.length_cons, climb_succ] at fits ⊢
  rw [visited_behind folder ⟨by decide, fits⟩, visited_up folder.above outer]
  rfl

theorem climb_fits_of_le {fewer more : Nat} (le : fewer ≤ more)
    (fits : (climb more).utf8ByteSize ≤ longestPath) :
    (climb fewer).utf8ByteSize ≤ longestPath := by
  induction le with
  | refl => exact fits
  | step _ inductionHypothesis =>
    rw [climb_succ] at fits
    exact inductionHypothesis (Nat.le_trans (utf8ByteSize_le_join _ rfl) fits)

theorem reach_up {name : String} (folder : disk.IsFolderAt (above ++ name :: below))
    {inside : Directory} (outer : (Node.folder disk).at? above = some (.folder inside))
    (fits : (climb (name :: below).length).utf8ByteSize ≤ longestPath)
    (steps : List Glob.Step) {found : Located} (base : found.base = climb below.length) :
    (disk.openedAt (above ++ name :: below)).reach (.name ".." :: steps) found =
      (disk.openedAt (above ++ name :: below)).reach steps
        ⟨climb (name :: below).length, .folder inside⟩ := by
  rw [reach]
  beta_reduce
  rw [base, ← climb_succ, ← @List.length_cons _ name, visited_climb folder outer fits,
    List.flatMap_singleton]

/-- The steps of the way up, taken one after the other, end at the directory above. -/
theorem reach_climb {whole : List String} (folder : disk.IsFolderAt whole) {inside : Directory}
    (outer : (Node.folder disk).at? above = some (.folder inside)) {name : String}
    {middle : List String} (place : whole = above ++ middle ++ name :: below)
    (fits : (climb (middle ++ name :: below).length).utf8ByteSize ≤ longestPath)
    (steps : List Glob.Step) {found : Located} (base : found.base = climb below.length) :
    (disk.openedAt whole).reach (List.replicate (middle.length + 1) (.name "..") ++ steps) found =
      (disk.openedAt whole).reach steps
        ⟨climb (middle ++ name :: below).length, .folder inside⟩ := by
  -- A step up goes through the names from the last to the first, so the last one of `middle` is
  -- taken over into `below` at each step.
  induction middle using List.reverseRecOn generalizing name below found with
  | nil =>
    rw [List.append_nil] at place
    subst place
    exact reach_up folder outer fits steps base
  | append_singleton middle last inductionHypothesis =>
    have fitsHere : (climb (name :: below).length).utf8ByteSize ≤ longestPath :=
      climb_fits_of_le (by simp only [List.length_append, List.length_cons]; omega) fits
    rw [place] at folder
    obtain ⟨own, between⟩ := folder.above
    have up := reach_up folder between fitsHere
      (List.replicate (middle.length + 1) (.name "..") ++ steps) base
    rw [← place] at up
    have away := @base_of_leadsAway ⟨climb (name :: below).length, .folder own⟩
      (leadsAway_climb below.length)
    rw [List.length_append, List.length_singleton, List.replicate_succ, List.cons_append, up]
    rw [List.append_assoc, List.singleton_append] at fits ⊢
    exact inductionHypothesis (by rw [place]; simp) fits away

/-- All the steps of the way up, taken from the place itself. -/
theorem reach_climb_here {name : String} (folder : disk.IsFolderAt (above ++ name :: below))
    {inside : Directory} (outer : (Node.folder disk).at? above = some (.folder inside))
    (fits : (climb (name :: below).length).utf8ByteSize ≤ longestPath)
    (steps : List Glob.Step) (entry : Node) :
    (disk.openedAt (above ++ name :: below)).reach
        (List.replicate (name :: below).length (.name "..") ++ steps) ⟨".", entry⟩ =
      (disk.openedAt (above ++ name :: below)).reach steps
        ⟨climb (name :: below).length, .folder inside⟩ := by
  obtain ⟨middle, last, same⟩ : ∃ middle last, name :: below = middle ++ [last] :=
    ⟨_, _, (List.dropLast_concat_getLast (List.cons_ne_nil name below)).symm⟩
  rw [same] at folder fits ⊢
  have base : (⟨".", entry⟩ : Located).base = climb ([] : List String).length := base_here entry
  have climbed := reach_climb folder outer (List.append_assoc above middle [last]).symm fits steps
    base
  rwa [show middle.length + 1 = (middle ++ [last]).length by simp] at climbed

/-- The paths about which the disk is asked while a pattern is expanded. -/
def consultedBy (workspace : Workspace) (pattern : String) : List String :=
  match Glob.steps pattern with
  | .error _ => []
  | .ok steps =>
    let start := if isAbsolute pattern then "/" else "."
    start :: (workspace.visited start).flatMap (workspace.consulted steps)

/-- Whether what a pattern stands for is looked for away from the place itself. -/
def patternSetsOut (pattern : String) : Bool :=
  isAbsolute pattern || (Glob.steps pattern).toOption.all Glob.setsOut

/-- The entries to which the steps of a pattern lead. -/
def foundBy (workspace : Workspace) (pattern : String) (steps : List Glob.Step) : List Located :=
  (workspace.visited (if isAbsolute pattern then "/" else ".")).flatMap (workspace.reach steps)

theorem expand_eq (workspace : Workspace) (pattern : String) :
    workspace.expand pattern = (Glob.steps pattern).map fun steps =>
      (if endsWithSeparator pattern then (workspace.foundBy pattern steps).filter Located.isFolder
        else workspace.foundBy pattern steps).map Located.path := by
  unfold expand
  cases Glob.steps pattern <;> rfl

theorem foundBy_of_isAbsolute (folder : disk.IsFolderAt (above ++ below)) {pattern : String}
    (absolute : isAbsolute pattern = true) {steps : List Glob.Step}
    (fits : ∀ path ∈ "/" :: ((disk.openedAt above).visited "/").flatMap
      ((disk.openedAt above).consulted steps), FitsBehind below.length path) :
    (disk.openedAt (above ++ below)).foundBy pattern steps =
      ((disk.openedAt above).foundBy pattern steps).map
        (Located.behind (climb below.length)) := by
  rw [List.forall_mem_cons] at fits
  have start := visited_behind folder fits.1
  rw [join_of_isAbsolute _ rfl] at start
  unfold foundBy
  rw [if_pos absolute, start]
  refine reach_all_behind folder (fun found member => ?_) fits.2
  rw [path_of_mem_visited member]
  exact ⟨by decide, by decide⟩

theorem foundBy_of_relative {name : String} (folder : disk.IsFolderAt (above ++ name :: below))
    {pattern : String} (relative : isAbsolute pattern = false) {steps : List Glob.Step}
    (away : Glob.setsOut steps = true)
    (fits : ∀ path ∈ "." :: ((disk.openedAt above).visited ".").flatMap
      ((disk.openedAt above).consulted steps), FitsBehind (name :: below).length path) :
    (disk.openedAt (above ++ name :: below)).foundBy
        (join (climb (name :: below).length) pattern)
        (List.replicate (name :: below).length (.name "..") ++ steps) =
      ((disk.openedAt above).foundBy pattern steps).map
        (Located.behind (climb (name :: below).length)) := by
  obtain ⟨own, place⟩ := folder
  obtain ⟨inside, outer⟩ := Directory.IsFolderAt.above ⟨own, place⟩
  have notTop : isAbsolute (join (climb (name :: below).length) pattern) = false := by
    rw [isAbsolute_join_of_relative relative, isAbsolute_climb]
  rw [visited_here outer, List.flatMap_singleton, List.forall_mem_cons] at fits
  have climbFits : (climb (name :: below).length).utf8ByteSize ≤ longestPath :=
    Nat.le_trans (utf8ByteSize_le_join _ rfl) fits.1.2
  unfold foundBy
  rw [relative, notTop, if_neg Bool.false_ne_true, visited_here place, visited_here outer,
    List.flatMap_singleton, List.flatMap_singleton,
    reach_climb_here ⟨own, place⟩ outer climbFits steps]
  exact reach_from_here ⟨own, place⟩ inside away fits.1 fits.2

theorem kept_behind {way : String} {found other : List Located} {text path : String}
    (same : other = found.map (Located.behind way))
    (ends : endsWithSeparator path = endsWithSeparator text) :
    (if endsWithSeparator path then other.filter Located.isFolder else other).map Located.path =
      ((if endsWithSeparator text then found.filter Located.isFolder else found).map
        Located.path).map (join way) := by
  rw [same, ends, Located.filter_isFolder_behind, ← apply_ite, List.map_map, List.map_map]
  rfl

/-- A pattern behind the way up stands for the paths it stands for from above, behind that
way. -/
theorem expand_join_climb (folder : disk.IsFolderAt (above ++ below)) {pattern : String}
    (valid : (Glob.ofText pattern).isOk = true) (away : patternSetsOut pattern = true)
    (fits : ∀ path ∈ (disk.openedAt above).consultedBy pattern, FitsBehind below.length path) :
    (disk.openedAt (above ++ below)).expand (join (climb below.length) pattern) =
      ((disk.openedAt above).expand pattern).map (List.map (join (climb below.length))) := by
  rw [expand_eq, expand_eq]
  unfold consultedBy at fits
  cases absolute : isAbsolute pattern with
  | true =>
    rw [join_of_isAbsolute _ absolute]
    cases read : Glob.steps pattern with
    | error invalid => rfl
    | ok steps =>
      simp only [read, absolute, if_true] at fits
      exact congrArg Except.ok (kept_behind (foundBy_of_isAbsolute folder absolute fits) rfl)
  | false =>
    rw [Glob.steps_climb _ absolute valid]
    cases read : Glob.steps pattern with
    | error invalid => rfl
    | ok steps =>
      simp only [read, absolute, Bool.false_eq_true, if_false] at fits
      simp only [patternSetsOut, absolute, read, Bool.false_or] at away
      cases below with
      | nil =>
        -- There is no way up, and nothing stands in front of anything.
        have stays : Located.behind (climb ([] : List String).length) = id :=
          funext fun found => congrArg (Located.mk · found.entry) (join_empty found.path)
        refine congrArg Except.ok (kept_behind ?_ (by rw [List.length_nil, climb_zero, join_empty]))
        rw [stays, List.map_id, List.append_nil, List.length_nil, climb_zero, join_empty]
        rfl
      | cons name below =>
        have some : pattern ≠ "" := by
          rintro rfl
          cases read
          cases away
        refine congrArg Except.ok (kept_behind (foundBy_of_relative folder absolute away fits) ?_)
        rw [join_of_relative _ absolute, endsWithSeparator_append _ some]

end Expand

end Workspace

end DocEntities
