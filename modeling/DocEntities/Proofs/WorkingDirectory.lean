/-
This file compares the runs that one configuration governs from different directories: from its
own one, and from those below it. They read the same configuration and reach the same sources in
the same order, behind the way up to the directory of the configuration. What they ignore can
differ: a path to ignore is taken from that directory as the sources are, but a pattern is held
against the whole path of a source, with the way up in front. So the runs agree exactly if every
source that is reached is ignored by both or by neither.
-/

import DocEntities.Command.Run
import DocEntities.Proofs.Relocation

namespace DocEntities

open DocEntities.Path

/-! ### Governed directories -/

/-- A directory whose configuration holds for one below it: nothing on the way down to that one
has a configuration of its own or is the top of a repository. -/
structure Directory.GovernedFrom (disk : Directory) (root below : List String) : Prop where
  folder : disk.IsFolderAt (root ++ below)
  configured : (disk.openedAt root).holds root Config.fileName = true
  clear : ∀ front, front <+: below → front ≠ [] →
    (disk.openedAt root).holds (root ++ front) Config.fileName = false ∧
      (disk.openedAt root).holds (root ++ front) Workspace.repositoryMark = false

namespace Workspace

section Load

variable {disk : Directory} {root below : List String}

theorem configRootFrom?_of_holds {workspace : Workspace} {location : List String}
    (holds : workspace.holds location Config.fileName = true) :
    workspace.configRootFrom? location.reverse = some location := by
  cases reversed : location.reverse with
  | nil =>
    rw [List.reverse_eq_nil_iff.mp reversed] at holds ⊢
    rw [configRootFrom?, if_pos holds]
  | cons name above =>
    have same : (name :: above).reverse = location := by rw [← reversed, List.reverse_reverse]
    rw [configRootFrom?, same, if_pos holds]

/-- The search for a configuration goes up as far as its directory. -/
theorem configRootFrom?_below {workspace : Workspace}
    (configured : workspace.holds root Config.fileName = true)
    (clear : ∀ front, front <+: below → front ≠ [] →
      workspace.holds (root ++ front) Config.fileName = false ∧
        workspace.holds (root ++ front) repositoryMark = false) :
    workspace.configRootFrom? (root ++ below).reverse = some root := by
  induction below using List.reverseRecOn with
  | nil =>
    rw [List.append_nil]
    exact configRootFrom?_of_holds configured
  | append_singleton below name inductionHypothesis =>
    obtain ⟨noConfig, noMark⟩ := clear (below ++ [name]) (List.prefix_refl _) (by simp)
    have above := inductionHypothesis fun front starts =>
      clear front (starts.trans (List.prefix_append below [name]))
    rw [← List.append_assoc, List.reverse_append, List.reverse_singleton, List.singleton_append,
      configRootFrom?]
    have whole : (name :: (root ++ below).reverse).reverse = root ++ (below ++ [name]) := by simp
    rw [whole, noConfig, noMark]
    exact above

theorem configRoot?_of_governed (governed : disk.GovernedFrom root below) :
    (disk.openedAt (root ++ below)).configRoot? = some root :=
  configRootFrom?_below governed.configured governed.clear

theorem isAbsolute_pathOf (location : List String) : isAbsolute (pathOf location) = true := by
  rw [pathOf, isAbsolute_append, if_neg (by decide)]
  rfl

/-- A configuration is read by its path from the top of the disk, so from everywhere alike. -/
theorem readConfig_openedAt (first second location : List String) :
    (disk.openedAt first).readConfig location = (disk.openedAt second).readConfig location := by
  have same : (disk.openedAt first).readText (pathOf (location ++ [Config.fileName])) =
      (disk.openedAt second).readText (pathOf (location ++ [Config.fileName])) := by
    unfold readText
    rw [find_of_isAbsolute first second (isAbsolute_pathOf _)]
  unfold readConfig
  simp only [same]

theorem loadConfig_of_governed (governed : disk.GovernedFrom root below) :
    (disk.openedAt (root ++ below)).loadConfig =
      ((disk.openedAt root).readConfig root).map (⟨·, some root⟩) := by
  have same := @readConfig_openedAt disk (root ++ below) root root
  unfold loadConfig
  simp only [configRoot?_of_governed governed, same]
  cases (disk.openedAt root).readConfig root <;> rfl

end Load

end Workspace

/-! ### Valid patterns -/

theorem eq_ok_of_forM_eq_ok {Item Fault : Type} {check : Item → Except Fault Unit}
    {items : List Item} (passes : items.forM check = .ok ()) :
    ∀ item ∈ items, check item = .ok () := by
  induction items with
  | nil => exact fun _ member => absurd member List.not_mem_nil
  | cons item rest inductionHypothesis =>
    rw [List.forM] at passes
    cases first : check item with
    | error fault => rw [first] at passes; cases passes
    | ok done =>
      rw [first] at passes
      exact List.forall_mem_cons.mpr ⟨first, inductionHypothesis passes⟩

theorem Config.isOk_of_validate {config : Config} (valid : config.validate = .ok ()) {text : String}
    (included : text ∈ config.includes) (pattern : Glob.isPattern text = true) :
    (Glob.ofText text).isOk = true := by
  unfold validate at valid
  cases ignores : config.ignores.forM (checkPattern .ignores) with
  | error failure => rw [ignores] at valid; cases valid
  | ok done =>
    rw [ignores] at valid
    have checked := eq_ok_of_forM_eq_ok valid text (List.mem_filter.mpr ⟨included, pattern⟩)
    unfold checkPattern at checked
    cases read : Glob.ofText text with
    | ok glob => rfl
    | error invalid => rw [read] at checked; cases checked

theorem Workspace.validate_of_readConfig {workspace : Workspace} {root : List String}
    {config : Config} (read : workspace.readConfig root = .ok config) :
    config.validate = .ok () := by
  unfold readConfig at read
  simp only at read
  split at read
  · cases read
  · split at read
    · cases read
    · rename_i parsed _
      cases valid : parsed.validate with
      | error failure => rw [valid] at read; cases read
      | ok done =>
        rw [valid] at read
        cases read
        exact valid

/-! ### Texts without repetition -/

theorem firsts_append_singleton (texts : List String) (last : String) :
    firsts (texts ++ [last]) =
      if (firsts texts).contains last then firsts texts else firsts texts ++ [last] := by
  rw [firsts, List.foldl_append]
  rfl

theorem mem_firsts {texts : List String} {text : String} : text ∈ firsts texts ↔ text ∈ texts := by
  induction texts using List.reverseRecOn with
  | nil => rfl
  | append_singleton texts last inductionHypothesis =>
    rw [firsts_append_singleton]
    split
    · rename_i present
      rw [List.contains_iff_mem] at present
      grind
    · rw [List.mem_append, List.mem_append, inductionHypothesis]

theorem firsts_map {change : String → String} (injective : Function.Injective change)
    (texts : List String) : firsts (texts.map change) = (firsts texts).map change := by
  induction texts using List.reverseRecOn with
  | nil => rfl
  | append_singleton texts last inductionHypothesis =>
    have present : ((firsts texts).map change).contains (change last) =
        (firsts texts).contains last := by
      rw [Bool.eq_iff_iff, List.contains_iff_mem, List.contains_iff_mem,
        List.mem_map_of_injective injective]
    rw [List.map_append, List.map_singleton, firsts_append_singleton, firsts_append_singleton,
      inductionHypothesis, present]
    split
    · rfl
    · rw [List.map_append, List.map_singleton]

/-! ### Sources -/

theorem isSource_join {way : String} (nameless : fileName? way = none) (path : String) :
    isSource (join way path) = isSource path := by
  unfold isSource extension?
  rw [fileName?_join nameless]

theorem isWanted_behind {way : String} (nameless : fileName? way = none) {found : Located}
    (alike : Workspace.fits (join way found.path) = Workspace.fits found.path) :
    (found.behind way).isWanted [] = found.isWanted [] := by
  unfold Located.isWanted Located.isFile
  rw [Located.behind, isSource_join nameless, alike]
  rfl

/-- The sources among what was found. -/
def sourcesAmong (all : List Located) : List String :=
  (all.filter (Located.isWanted [])).map Located.path

theorem sourcesAmong_behind {way : String} (nameless : fileName? way = none) {all : List Located}
    (alike : ∀ found ∈ all,
      Workspace.fits (join way found.path) = Workspace.fits found.path) :
    sourcesAmong (all.map (Located.behind way)) = (sourcesAmong all).map (join way) := by
  unfold sourcesAmong
  have wanted : all.filter (Located.isWanted [] ∘ Located.behind way) =
      all.filter (Located.isWanted []) :=
    List.filter_congr fun found member => isWanted_behind nameless (alike found member)
  rw [List.filter_map, wanted, List.map_map, List.map_map]
  rfl

namespace Workspace

/-- Whether one of several things to ignore covers a path. -/
def coveredBy (ignores : List Ignore) (path : String) : Bool :=
  ignores.any fun ignore => ignore.covers path

theorem filesUnder_eq (workspace : Workspace) (ignores : List Ignore) (root : String) :
    workspace.filesUnder ignores root =
      ((workspace.visited root).flatMap fun found => sourcesAmong found.tree).filter
        fun path => !coveredBy ignores path := by
  unfold filesUnder visited
  cases workspace.visit root with
  | error fault => rfl
  | ok found =>
    show _ = (([found].flatMap fun found => sourcesAmong found.tree).filter _)
    rw [List.flatMap_singleton, sourcesAmong, List.filter_map, List.filter_filter]
    refine congrArg (List.map _) (List.filter_congr fun other _ => ?_)
    unfold Located.isWanted coveredBy
    simp only [Function.comp_apply, List.any_nil, Bool.not_false, Bool.and_true]
    rw [Bool.and_comm]

/-- The sources that several places lead to, ignored or not. -/
def sourcesUnder (workspace : Workspace) (roots : List String) : List String :=
  roots.flatMap fun root => (workspace.visited root).flatMap fun found => sourcesAmong found.tree

theorem files_scan (workspace : Workspace) (base : String) (includes ignores : List String) :
    (workspace.scan base includes ignores).files =
      firsts ((workspace.sourcesUnder (Roots.ofList workspace base includes).paths).filter
        fun path => !coveredBy (Ignore.ofList base ignores) path) := by
  rw [sourcesUnder, List.filter_flatMap]
  refine congrArg firsts (List.flatMap_congr fun root _ => ?_)
  exact workspace.filesUnder_eq _ root

/-! ### What is reached -/

/-- The paths about which the disk is asked while it is gone through from a place. -/
def walkedPaths (workspace : Workspace) (root : String) : List String :=
  root :: (workspace.visited root).flatMap fun found => found.tree.map Located.path

/-- The paths about which the disk is asked for the sources of what is included. -/
def asked (workspace : Workspace) (includes : List String) : List String :=
  (includes.flatMap fun text =>
    if Glob.isPattern text then workspace.consultedBy text else [text]) ++
    (Roots.ofList workspace "" includes).paths.flatMap workspace.walkedPaths

/-- The sources of what is included, from the working directory, ignored or not. -/
def reached (workspace : Workspace) (includes : List String) : List String :=
  if includes.isEmpty then
    match workspace.nodeAt? workspace.location with
    | some (.folder inside) => sourcesAmong (inside.descendants "")
    | _ => []
  else workspace.sourcesUnder (Roots.ofIncludes workspace "" includes).paths

/-- What stands in front of the paths that are found, if what is included is taken from a
directory that is a number of levels above. -/
def wayTo (includes : List String) (levels : Nat) : String :=
  if includes.isEmpty && levels == 0 then "." else climb levels

theorem fileName?_wayTo (includes : List String) (levels : Nat) :
    fileName? (wayTo includes levels) = none := by
  unfold wayTo
  split
  · decide
  · exact fileName?_climb levels

theorem isAbsolute_wayTo (includes : List String) (levels : Nat) :
    isAbsolute (wayTo includes levels) = false := by
  unfold wayTo
  split
  · rfl
  · exact isAbsolute_climb levels

section Sources

variable {disk : Directory} {above below : List String}

theorem sourcesUnder_behind (folder : disk.IsFolderAt (above ++ below)) {roots : List String}
    (fits : ∀ path ∈ roots.flatMap (disk.openedAt above).walkedPaths,
      FitsBehind below.length path) :
    (disk.openedAt (above ++ below)).sourcesUnder (roots.map (join (climb below.length))) =
      ((disk.openedAt above).sourcesUnder roots).map (join (climb below.length)) := by
  unfold sourcesUnder
  rw [List.flatMap_map, List.map_flatMap]
  refine List.flatMap_congr fun root member => ?_
  have walked : ∀ path ∈ (disk.openedAt above).walkedPaths root, FitsBehind below.length path :=
    fun path inRoot => fits path (List.mem_flatMap.mpr ⟨root, member, inRoot⟩)
  obtain ⟨rootFits, treeFits⟩ := List.forall_mem_cons.mp walked
  rw [visited_behind folder rootFits, List.flatMap_map, List.map_flatMap]
  refine List.flatMap_congr fun found isFound => ?_
  have alike : ∀ met ∈ found.tree,
      Workspace.fits (join (climb below.length) met.path) = Workspace.fits met.path :=
    fun met inTree => (treeFits met.path
      (List.mem_flatMap.mpr ⟨found, isFound, List.mem_map_of_mem inTree⟩)).fits_eq
  rw [Located.tree_behind fun met inTree _ => alike met inTree,
    sourcesAmong_behind (fileName?_climb _) alike]

theorem paths_ofInclude (folder : disk.IsFolderAt (above ++ below)) {text : String}
    (valid : Glob.isPattern text = true → (Glob.ofText text).isOk = true)
    (away : Glob.isPattern text = true → patternSetsOut text = true)
    (fits : ∀ path ∈ if Glob.isPattern text then (disk.openedAt above).consultedBy text
      else [text], FitsBehind below.length path) :
    (Roots.ofInclude (disk.openedAt (above ++ below)) (climb below.length) text).paths =
      (Roots.ofInclude (disk.openedAt above) "" text).paths.map (join (climb below.length)) := by
  unfold Roots.ofInclude
  rw [join_empty]
  by_cases pattern : Glob.isPattern text = true
  · rw [if_pos pattern] at fits
    simp only [pattern, if_true]
    rw [expand_join_climb folder (valid pattern) (away pattern) fits]
    cases (disk.openedAt above).expand text <;> rfl
  · rw [if_neg pattern, List.forall_mem_singleton] at fits
    have same : (disk.openedAt (above ++ below)).exists? (join (climb below.length) text) =
        (disk.openedAt above).exists? text := congrArg Except.isOk (find_join_climb folder fits)
    simp only [pattern, same, Bool.false_eq_true, if_false]
    split <;> rfl

theorem paths_ofIncludes (folder : disk.IsFolderAt (above ++ below)) {includes : List String}
    (valid : ∀ text ∈ includes, Glob.isPattern text = true → (Glob.ofText text).isOk = true)
    (away : ∀ text ∈ includes, Glob.isPattern text = true → patternSetsOut text = true)
    (fits : ∀ path ∈ includes.flatMap fun text =>
      if Glob.isPattern text then (disk.openedAt above).consultedBy text else [text],
      FitsBehind below.length path) :
    (Roots.ofIncludes (disk.openedAt (above ++ below)) (climb below.length) includes).paths =
      (Roots.ofIncludes (disk.openedAt above) "" includes).paths.map
        (join (climb below.length)) := by
  induction includes with
  | nil => rfl
  | cons text texts inductionHypothesis =>
    rw [List.flatMap_cons, List.forall_mem_append] at fits
    rw [List.forall_mem_cons] at valid away
    have first := paths_ofInclude folder valid.1 away.1 fits.1
    have later := inductionHypothesis valid.2 away.2 fits.2
    simp only [Roots.ofIncludes, Roots.append, first, later, List.map_append]

/-- A path that fits behind the way up, with the place itself in front, also fits without it. -/
theorem FitsBehind.wayTo {levels : Nat} {path : String}
    (behind : FitsBehind levels (join "." path)) :
    Workspace.fits (join (wayTo [] levels) path) = true ∧ Workspace.fits path = true := by
  cases absolute : isAbsolute path with
  | true =>
    have short := behind.both.2
    rw [join_of_isAbsolute _ absolute] at short ⊢
    exact ⟨short, short⟩
  | false =>
    have through := behind.both.1
    have here := behind.both.2
    have relative : isAbsolute (join "." path) = false := isAbsolute_join_of_relative absolute
    have alone : (join (climb levels) path).utf8ByteSize ≤
        (join (climb levels) (join "." path)).utf8ByteSize := by
      rw [join_of_relative _ relative, join_of_relative _ absolute, join_of_relative _ absolute]
      simp only [String.utf8ByteSize_append]
      omega
    have shorter : path.utf8ByteSize ≤ (join "." path).utf8ByteSize := by
      rw [join_of_relative _ absolute]
      simp only [String.utf8ByteSize_append]
      omega
    refine ⟨?_, fits_iff.mpr (Nat.le_trans shorter (fits_iff.mp here))⟩
    cases levels with
    | zero => exact here
    | succ levels => exact fits_iff.mpr (Nat.le_trans alone (fits_iff.mp through))

/-- The sources in the directory that stands above are met behind the way to it. -/
theorem sourcesAmong_tree_wayTo {levels : Nat} {inside : Directory}
    (fits : ∀ met ∈ (⟨".", .folder inside⟩ : Located).tree, FitsBehind levels met.path) :
    sourcesAmong (⟨wayTo [] levels, .folder inside⟩ : Located).tree =
      (sourcesAmong (inside.descendants "")).map (join (wayTo [] levels)) := by
  have leads (way : String) : ∀ name, join way name = join way (join "" name) := fun name => by
    rw [join_empty]
  obtain ⟨hereFits, belowFits⟩ := List.forall_mem_cons.mp fits
  have top : Workspace.fits (wayTo [] levels) = true := by
    cases levels with
    | zero => exact hereFits.both.2
    | succ levels =>
      have relative : isAbsolute "." = false := rfl
      exact fits_iff.mpr (Nat.le_trans (utf8ByteSize_le_join _ relative) hereFits.2)
  -- What is met below `.` is looked up with it in front, so everything fits without it.
  have fromHere : inside.descendants "." = (inside.descendants "").map (Located.behind ".") := by
    refine Directory.descendants_behind (leads ".") inside fun found _ met _ => ?_
    have short := belowFits _ met
    exact short.both.2.trans short.wayTo.2.symm
  have short : ∀ found ∈ inside.descendants "",
      Workspace.fits (join (wayTo [] levels) found.path) = Workspace.fits found.path := by
    intro found member
    have met : found.behind "." ∈ inside.descendants "." :=
      fromHere ▸ List.mem_map_of_mem member
    obtain ⟨behind, alone⟩ := (belowFits _ met).wayTo
    exact behind.trans alone.symm
  rw [← sourcesAmong_behind (fileName?_wayTo _ _) short,
    ← Directory.descendants_behind (leads _) inside fun found member _ _ => short found member,
    Located.tree, Located.below_of_fits _ rfl top]
  rfl

/-- From every directory below, the same sources are reached in the same order, behind the way
up. -/
theorem sourcesUnder_ofList (folder : disk.IsFolderAt (above ++ below)) {includes : List String}
    (valid : ∀ text ∈ includes, Glob.isPattern text = true → (Glob.ofText text).isOk = true)
    (away : ∀ text ∈ includes, Glob.isPattern text = true → patternSetsOut text = true)
    (fits : ∀ path ∈ (disk.openedAt above).asked includes, FitsBehind below.length path) :
    (disk.openedAt (above ++ below)).sourcesUnder
        (Roots.ofList (disk.openedAt (above ++ below)) (climb below.length) includes).paths =
      ((disk.openedAt above).reached includes).map (join (wayTo includes below.length)) := by
  rw [asked, List.forall_mem_append] at fits
  obtain ⟨looked, walked⟩ := fits
  cases includes with
  | cons text texts =>
    simp only [Roots.ofList, reached, wayTo, List.isEmpty_cons, Bool.false_and,
      Bool.false_eq_true, if_false] at walked ⊢
    rw [paths_ofIncludes folder valid away looked]
    exact sourcesUnder_behind folder walked
  | nil =>
    obtain ⟨inside, outer⟩ := folder.above
    have listed : (disk.openedAt above).reached [] = sourcesAmong (inside.descendants "") := by
      simp only [reached, List.isEmpty_nil, if_true, nodeAt?, outer]
    have here : ∀ path ∈ (disk.openedAt above).walkedPaths ".", FitsBehind below.length path := by
      intro path member
      exact walked path (List.mem_flatMap.mpr ⟨".", List.mem_singleton_self _, member⟩)
    rw [walkedPaths, visited_here outer, List.flatMap_singleton, List.forall_mem_cons] at here
    -- The one place to look at is the directory itself, written as `.` or as the way up.
    have start : (disk.openedAt (above ++ below)).visited (wayTo [] below.length) =
        [⟨wayTo [] below.length, .folder inside⟩] := by
      cases below with
      | nil =>
        rw [List.append_nil]
        exact visited_here outer
      | cons name below =>
        exact visited_climb folder outer (Nat.le_trans (utf8ByteSize_le_join _ rfl) here.1.2)
    have roots : (Roots.ofList (disk.openedAt (above ++ below)) (climb below.length) []).paths =
        [wayTo [] below.length] := by
      cases below with
      | nil => rfl
      | cons name below =>
        simp only [Roots.ofList, List.isEmpty_nil, if_true, List.length_cons,
          String.isEmpty_eq_false_iff.mpr (climb_ne_empty below.length)]
        rfl
    rw [listed, roots, sourcesUnder, List.flatMap_singleton, start, List.flatMap_singleton]
    exact sourcesAmong_tree_wayTo fun met member => here.2 _ (List.mem_map_of_mem member)

end Sources

/-! ### What is ignored -/

/-- Whether a source is ignored by a run that works a number of levels below the directory of its
configuration, given the path of the source from there. -/
def ignoredFrom (config : Config) (levels : Nat) (name : String) : Bool :=
  coveredBy (Ignore.ofList (climb levels) config.ignores)
    (join (wayTo config.includes levels) name)

section Requests

variable {disk : Directory} {root below : List String} {config : Config} {request : Request}

theorem scanRequest_of_governed (noPaths : request.paths = []) :
    (disk.openedAt (root ++ below)).scanRequest request ⟨config, some root⟩ =
      (disk.openedAt (root ++ below)).scan (climb below.length) config.includes
        config.ignores := by
  have levels : (root ++ below).length - root.length = below.length := by
    rw [List.length_append]
    omega
  simp only [scanRequest, noPaths, List.isEmpty_nil, if_true, pathUpTo, levels, climb]

/-- The files of a scan are those that are reached from above and not ignored, each of them once
and behind the way up. -/
theorem files_scanRequest (folder : disk.IsFolderAt (root ++ below)) (noPaths : request.paths = [])
    (valid : config.validate = .ok ())
    (away : ∀ text ∈ config.includes, Glob.isPattern text = true → patternSetsOut text = true)
    (fits : ∀ path ∈ (disk.openedAt root).asked config.includes, FitsBehind below.length path) :
    ((disk.openedAt (root ++ below)).scanRequest request ⟨config, some root⟩).files =
      (firsts (((disk.openedAt root).reached config.includes).filter fun name =>
        !ignoredFrom config below.length name)).map
        (join (wayTo config.includes below.length)) := by
  have sources := sourcesUnder_ofList folder
    (fun text included pattern => Config.isOk_of_validate valid included pattern) away fits
  rw [scanRequest_of_governed noPaths, files_scan, sources, List.filter_map,
    firsts_map (join_injective (isAbsolute_wayTo _ _))]
  rfl

end Requests

end Workspace

theorem firsts_filter_eq_iff {texts : List String} {first second : String → Bool} :
    firsts (texts.filter first) = firsts (texts.filter second) ↔
      ∀ text ∈ texts, first text = second text := by
  constructor
  · intro same text member
    have both : text ∈ texts.filter first ↔ text ∈ texts.filter second := by
      rw [← mem_firsts, same, mem_firsts]
    rw [List.mem_filter, List.mem_filter] at both
    rw [Bool.eq_iff_iff]
    exact ⟨fun kept => (both.mp ⟨member, kept⟩).2, fun kept => (both.mpr ⟨member, kept⟩).2⟩
  · intro same
    rw [List.filter_congr same]

/-- Two lists of paths are the same list, the one behind one way and the other behind another. -/
def SameBehind (firstWay secondWay : String) (first second : List String) : Prop :=
  ∃ names : List String, first = names.map (join firstWay) ∧ second = names.map (join secondWay)

theorem sameBehind_map_iff {firstWay secondWay : String} (first : isAbsolute firstWay = false)
    (second : isAbsolute secondWay = false) {names others : List String} :
    SameBehind firstWay secondWay (names.map (join firstWay)) (others.map (join secondWay)) ↔
      names = others := by
  constructor
  · rintro ⟨common, sameFirst, sameSecond⟩
    rw [List.map_injective_iff.mpr (join_injective first) sameFirst,
      List.map_injective_iff.mpr (join_injective second) sameSecond]
  · rintro rfl
    exact ⟨names, rfl, rfl⟩

theorem scans_agree_iff {disk : Directory} {root first second : List String} {config : Config}
    {request : Request} (firstFolder : disk.IsFolderAt (root ++ first))
    (secondFolder : disk.IsFolderAt (root ++ second)) (valid : config.validate = .ok ())
    (noPaths : request.paths = [])
    (away : ∀ text ∈ config.includes, Glob.isPattern text = true →
      Workspace.patternSetsOut text = true)
    (fits : ∀ path ∈ (disk.openedAt root).asked config.includes,
      Workspace.FitsBehind first.length path ∧ Workspace.FitsBehind second.length path) :
    SameBehind (Workspace.wayTo config.includes first.length)
        (Workspace.wayTo config.includes second.length)
        ((disk.openedAt (root ++ first)).scanRequest request ⟨config, some root⟩).files
        ((disk.openedAt (root ++ second)).scanRequest request ⟨config, some root⟩).files ↔
      ∀ name ∈ (disk.openedAt root).reached config.includes,
        Workspace.ignoredFrom config first.length name =
          Workspace.ignoredFrom config second.length name := by
  rw [Workspace.files_scanRequest firstFolder noPaths valid away fun path member =>
      (fits path member).1,
    Workspace.files_scanRequest secondFolder noPaths valid away fun path member =>
      (fits path member).2,
    sameBehind_map_iff (Workspace.isAbsolute_wayTo _ _) (Workspace.isAbsolute_wayTo _ _),
    firsts_filter_eq_iff]
  simp only [Bool.not_inj_iff]

/-! ### Ignoring alike -/

/-- A text to ignore that covers the same paths from every directory below its own. -/
def Ignore.IsSteady (text : String) : Prop :=
  if Glob.isPattern text then ∀ glob, Glob.ofText text = .ok glob → glob.BlindToWayUp
  else isAbsolute text = true ∨ components text = inner text

theorem coveredBy_ofList (base : String) (texts : List String) (path : String) :
    Workspace.coveredBy (Ignore.ofList base texts) path =
      texts.any fun text => (Ignore.ofText base text).toOption.any fun ignore =>
        ignore.covers path := by
  unfold Workspace.coveredBy Ignore.ofList
  rw [List.any_filterMap]
  rfl

theorem Ignore.IsSteady.covers {text : String} (steady : Ignore.IsSteady text) (levels : Nat)
    {name : String} (relative : isAbsolute name = false) (plain : components name = inner name) :
    ((Ignore.ofText (climb levels) text).toOption.any fun ignore =>
        ignore.covers (join (climb levels) name)) =
      (Ignore.ofText "" text).toOption.any fun ignore => ignore.covers name := by
  unfold Ignore.IsSteady at steady
  unfold Ignore.ofText
  by_cases pattern : Glob.isPattern text = true
  · rw [if_pos pattern] at steady
    simp only [pattern, if_true]
    cases read : Glob.ofText text with
    | error invalid => rfl
    | ok glob => exact (steady glob read).accepts_join_climb levels relative
  · rw [if_neg pattern] at steady
    simp only [pattern, Bool.false_eq_true, if_false]
    rw [join_empty]
    exact isUnder_join_climb levels relative plain steady

theorem wayTo_of_ne_nil {includes : List String} (included : includes ≠ []) (levels : Nat) :
    Workspace.wayTo includes levels = climb levels := by
  rw [Workspace.wayTo, List.isEmpty_eq_false_iff.mpr included]
  rfl

/-- Where everything to ignore is steady and no source is reached through the top of the disk or
the place itself, it makes no difference from where it is ignored. -/
theorem ignoredFrom_of_isSteady {config : Config} (included : config.includes ≠ [])
    (steady : ∀ text ∈ config.ignores, Ignore.IsSteady text) (first second : Nat) {name : String}
    (relative : isAbsolute name = false) (plain : components name = inner name) :
    Workspace.ignoredFrom config first name = Workspace.ignoredFrom config second name := by
  unfold Workspace.ignoredFrom
  rw [wayTo_of_ne_nil included, wayTo_of_ne_nil included, coveredBy_ofList, coveredBy_ofList,
    Bool.eq_iff_iff, List.any_eq_true, List.any_eq_true]
  refine exists_congr fun text => and_congr_right fun member => ?_
  rw [(steady text member).covers first relative plain,
    (steady text member).covers second relative plain]

theorem isSteady_of_startsBlind {text : String} (pattern : Glob.isPattern text = true)
    (starts : (Glob.ofText text).toOption.all (fun glob => Glob.startsBlind glob.parts) = true) :
    Ignore.IsSteady text := by
  rw [Ignore.IsSteady, if_pos pattern]
  intro glob read
  rw [read] at starts
  exact Glob.blindToWayUp_of_startsBlind starts

/-- What is ignored by default is steady. -/
theorem isSteady_of_mem_default {text : String} (member : text ∈ Config.default.ignores) :
    Ignore.IsSteady text := by
  have patterns : ∀ text ∈ Config.default.ignores, Glob.isPattern text = true ∧
      (Glob.ofText text).toOption.all (fun glob => Glob.startsBlind glob.parts) = true := by
    decide +kernel
  obtain ⟨pattern, starts⟩ := patterns text member
  exact isSteady_of_startsBlind pattern starts

/-- With steady texts to ignore, the files are the same from everywhere. -/
theorem same_files_of_isSteady {disk : Directory} {root first second : List String}
    {config : Config} {request : Request} (firstFolder : disk.IsFolderAt (root ++ first))
    (secondFolder : disk.IsFolderAt (root ++ second)) (valid : config.validate = .ok ())
    (noPaths : request.paths = []) (included : config.includes ≠ [])
    (away : ∀ text ∈ config.includes, Glob.isPattern text = true →
      Workspace.patternSetsOut text = true)
    (fits : ∀ path ∈ (disk.openedAt root).asked config.includes,
      Workspace.FitsBehind first.length path ∧ Workspace.FitsBehind second.length path)
    (steady : ∀ text ∈ config.ignores, Ignore.IsSteady text)
    (plain : ∀ name ∈ (disk.openedAt root).reached config.includes,
      isAbsolute name = false ∧ components name = inner name) :
    SameBehind (climb first.length) (climb second.length)
      ((disk.openedAt (root ++ first)).scanRequest request ⟨config, some root⟩).files
      ((disk.openedAt (root ++ second)).scanRequest request ⟨config, some root⟩).files := by
  rw [← wayTo_of_ne_nil included, ← wayTo_of_ne_nil included]
  refine (scans_agree_iff firstFolder secondFolder valid noPaths away fits).mpr ?_
  intro name member
  obtain ⟨relative, noOpening⟩ := plain name member
  exact ignoredFrom_of_isSteady included steady _ _ relative noOpening

/-- From two directories that one configuration governs, the same configuration is loaded, and
without paths of its own a request finds the same files in the same order, behind the way up to
the directory of the configuration, exactly if each source that is reached from there is ignored
from both or from neither. This holds for every configuration that is accepted, as long as every
pattern it includes leads away from that directory with its first step and every path about
which the disk is asked is one and fits behind the way up. -/
theorem same_files_iff_ignored_alike {disk : Directory} {root first second : List String}
    (firstGoverned : disk.GovernedFrom root first)
    (secondGoverned : disk.GovernedFrom root second) :
    (disk.openedAt (root ++ first)).loadConfig = (disk.openedAt (root ++ second)).loadConfig ∧
    ∀ configured : Configured,
      (disk.openedAt (root ++ first)).loadConfig = .ok configured →
      (∀ text ∈ configured.config.includes, Glob.isPattern text = true →
        Workspace.patternSetsOut text = true) →
      (∀ path ∈ (disk.openedAt root).asked configured.config.includes,
        Workspace.FitsBehind first.length path ∧ Workspace.FitsBehind second.length path) →
      ∀ request : Request, request.paths = [] →
        (SameBehind (Workspace.wayTo configured.config.includes first.length)
            (Workspace.wayTo configured.config.includes second.length)
            ((disk.openedAt (root ++ first)).scanRequest request configured).files
            ((disk.openedAt (root ++ second)).scanRequest request configured).files ↔
          ∀ name ∈ (disk.openedAt root).reached configured.config.includes,
            Workspace.ignoredFrom configured.config first.length name =
              Workspace.ignoredFrom configured.config second.length name) := by
  have firstLoad := Workspace.loadConfig_of_governed firstGoverned
  have secondLoad := Workspace.loadConfig_of_governed secondGoverned
  refine ⟨firstLoad.trans secondLoad.symm, fun configured loaded away fits request noPaths => ?_⟩
  rw [firstLoad] at loaded
  cases read : (disk.openedAt root).readConfig root with
  | error failure => rw [read] at loaded; cases loaded
  | ok config =>
    rw [read] at loaded
    cases loaded
    exact scans_agree_iff firstGoverned.folder secondGoverned.folder
      (Workspace.validate_of_readConfig read) noPaths away fits

/-- A project with a configuration, two sources and a directory without any. -/
def smallProject (config : String) : Directory :=
  .file Config.fileName config.toUTF8
    (.folder "lib"
      (.file "a.js" "/** c */\nvar a;\n".toUTF8 (.file "a.min.js" "var a;\n".toUTF8 .empty))
      (.folder "sub" .empty .empty))

theorem smallProject_governed (config : String) :
    (smallProject config).GovernedFrom [] [] ∧ (smallProject config).GovernedFrom [] ["sub"] := by
  refine ⟨⟨⟨_, rfl⟩, rfl, fun front starts some => ?_⟩,
    ⟨⟨_, rfl⟩, rfl, fun front starts some => ?_⟩⟩
  · exact absurd (List.prefix_nil.mp starts) some
  · have whole : front = ["sub"] := by
      rcases List.prefix_cons_iff.mp starts with none | ⟨rest, rfl, tail⟩
      · exact absurd none some
      · rw [List.prefix_nil.mp tail]
    rw [whole]
    exact ⟨rfl, rfl⟩

/-- A project that ignores what one of the default patterns matches. -/
def minifiedProject : Directory :=
  smallProject "\x7b\"includes\":[\"lib/*\"],\"ignores\":[\"**/*.min.js\"]\x7d"

def minifiedConfigured : Configured :=
  ⟨{ includes := ["lib/*"], ignores := ["**/*.min.js"] }, some []⟩

theorem same_files_in_minifiedProject :
    minifiedProject.GovernedFrom [] [] ∧ minifiedProject.GovernedFrom [] ["sub"] ∧
      (minifiedProject.openedAt []).loadConfig = .ok minifiedConfigured ∧
      (∀ text ∈ ["lib/*"], Glob.isPattern text = true → Workspace.patternSetsOut text = true) ∧
      (∀ path ∈ (minifiedProject.openedAt []).asked ["lib/*"],
        Workspace.FitsBehind 0 path ∧ Workspace.FitsBehind 1 path) ∧
      SameBehind "" ".."
        ((minifiedProject.openedAt []).scanRequest {} minifiedConfigured).files
        ((minifiedProject.openedAt ["sub"]).scanRequest {} minifiedConfigured).files := by
  obtain ⟨atRoot, atSub⟩ := smallProject_governed
    "\x7b\"includes\":[\"lib/*\"],\"ignores\":[\"**/*.min.js\"]\x7d"
  have loaded : (minifiedProject.openedAt []).loadConfig = .ok minifiedConfigured := by
    decide +kernel
  have away : ∀ text ∈ ["lib/*"], Glob.isPattern text = true →
      Workspace.patternSetsOut text = true := by decide +kernel
  have fits : ∀ path ∈ (minifiedProject.openedAt []).asked ["lib/*"],
      Workspace.FitsBehind 0 path ∧ Workspace.FitsBehind 1 path := by decide +kernel
  have agreement :=
    (same_files_iff_ignored_alike atRoot atSub).2 minifiedConfigured loaded away fits {} rfl
  exact ⟨atRoot, atSub, loaded, away, fits, agreement.mpr (by decide +kernel)⟩

/-- A project that ignores its sources by their directory. -/
def selfIgnoringProject : Directory :=
  smallProject "\x7b\"includes\":[\"lib\"],\"ignores\":[\"lib/*.js\"]\x7d"

def selfIgnoringConfigured : Configured :=
  ⟨{ includes := ["lib"], ignores := ["lib/*.js"] }, some []⟩

/-- Both directories are governed by one configuration. From its own directory it ignores every
source; from below, none. -/
theorem files_differ_in_selfIgnoringProject :
    selfIgnoringProject.GovernedFrom [] [] ∧ selfIgnoringProject.GovernedFrom [] ["sub"] ∧
      (selfIgnoringProject.openedAt []).loadConfig = .ok selfIgnoringConfigured ∧
      (selfIgnoringProject.openedAt ["sub"]).loadConfig = .ok selfIgnoringConfigured ∧
      selfIgnoringConfigured.config.validate = .ok () ∧
      ((selfIgnoringProject.openedAt ["sub"]).scanRequest {} selfIgnoringConfigured).files =
        ["../lib/a.js", "../lib/a.min.js"] ∧
      ∀ firstWay secondWay, ¬SameBehind firstWay secondWay
        ((selfIgnoringProject.openedAt []).scanRequest {} selfIgnoringConfigured).files
        ((selfIgnoringProject.openedAt ["sub"]).scanRequest {} selfIgnoringConfigured).files := by
  obtain ⟨atRoot, atSub⟩ := smallProject_governed
    "\x7b\"includes\":[\"lib\"],\"ignores\":[\"lib/*.js\"]\x7d"
  have rootFiles :
      ((selfIgnoringProject.openedAt []).scanRequest {} selfIgnoringConfigured).files = [] := by
    decide +kernel
  have subFiles :
      ((selfIgnoringProject.openedAt ["sub"]).scanRequest {} selfIgnoringConfigured).files =
        ["../lib/a.js", "../lib/a.min.js"] := by
    decide +kernel
  refine ⟨atRoot, atSub, by decide +kernel, by decide +kernel, by decide +kernel, subFiles, ?_⟩
  rw [rootFiles, subFiles]
  rintro firstWay secondWay ⟨names, noFile, files⟩
  rw [List.map_eq_nil_iff.mp noFile.symm] at files
  cases files

end DocEntities
