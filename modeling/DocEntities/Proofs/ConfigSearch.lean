/-
This file says which configuration holds for a directory: the one in the nearest directory at or
above it that has one, unless a directory further down on the way is the top of a repository. The
search looks at one directory after the other, at its configuration before its mark, so the mark
counts only where there is no configuration.

A run takes what its configuration includes from the directory of the configuration, and leads
there by a way up of its own: one step for each level between the two directories. From the
working directory that way ends where the search has ended.
-/

import DocEntities.Proofs.WorkingDirectory

namespace DocEntities

open DocEntities.Path

namespace Workspace

variable {workspace : Workspace} {location root : List String}

/-- A directory is the nearest one with a configuration, at or above a place. -/
structure IsNearestConfig (workspace : Workspace) (location root : List String) : Prop where
  above : root <+: location
  configured : workspace.holds root Config.fileName = true
  nearest : ∀ other, other <+: location → workspace.holds other Config.fileName = true →
    other <+: root

/-- From a place up to a directory, that one left out, nothing is the top of a repository. -/
def IsOpenWay (workspace : Workspace) (location root : List String) : Prop :=
  ∀ between, between <+: location → root.length < between.length →
    workspace.holds between repositoryMark = false

theorem IsNearestConfig.unique {other : List String}
    (nearest : workspace.IsNearestConfig location root)
    (otherNearest : workspace.IsNearestConfig location other) : root = other := by
  have below := nearest.nearest other otherNearest.above otherNearest.configured
  have back := otherNearest.nearest root nearest.above nearest.configured
  exact back.eq_of_length_le below.length_le

/-! ### The search -/

theorem isNearestConfig_self (configured : workspace.holds location Config.fileName = true) :
    workspace.IsNearestConfig location location where
  above := List.prefix_refl location
  configured := configured
  nearest _ starts _ := starts

/-- Above a directory without a configuration the search goes on as from the directory above. -/
theorem isNearestConfig_concat_iff {name : String}
    (bare : workspace.holds (location ++ [name]) Config.fileName = false) :
    workspace.IsNearestConfig (location ++ [name]) root ↔
      workspace.IsNearestConfig location root := by
  have notHere : ∀ other, workspace.holds other Config.fileName = true →
      other ≠ location ++ [name] := by
    rintro _ configured rfl
    rw [bare] at configured
    cases configured
  constructor
  · rintro ⟨above, configured, nearest⟩
    exact ⟨(List.prefix_concat_iff.mp above).resolve_left (notHere root configured), configured,
      fun other starts => nearest other (starts.trans (List.prefix_append location [name]))⟩
  · rintro ⟨above, configured, nearest⟩
    exact ⟨above.trans (List.prefix_append location [name]), configured,
      fun other starts found =>
        nearest other ((List.prefix_concat_iff.mp starts).resolve_left (notHere other found))
          found⟩

theorem isOpenWay_concat_iff {name : String} (shorter : root.length ≤ location.length) :
    workspace.IsOpenWay (location ++ [name]) root ↔
      workspace.holds (location ++ [name]) repositoryMark = false ∧
        workspace.IsOpenWay location root := by
  unfold IsOpenWay
  constructor
  · intro clear
    exact ⟨clear _ (List.prefix_refl _) (by rw [List.length_append, List.length_singleton]; omega),
      fun between starts => clear between (starts.trans (List.prefix_append location [name]))⟩
  · rintro ⟨here, clear⟩ between starts longer
    rcases List.prefix_concat_iff.mp starts with rfl | above
    · exact here
    · exact clear between above longer

theorem configRootFrom?_concat (workspace : Workspace) (location : List String) (name : String) :
    workspace.configRootFrom? (location ++ [name]).reverse =
      if workspace.holds (location ++ [name]) Config.fileName then some (location ++ [name])
      else if workspace.holds (location ++ [name]) repositoryMark then none
      else workspace.configRootFrom? location.reverse := by
  have whole : (name :: location.reverse).reverse = location ++ [name] := by
    rw [List.reverse_cons, List.reverse_reverse]
  rw [List.reverse_append, List.reverse_singleton, List.singleton_append, configRootFrom?, whole]

theorem configRootFrom?_eq_some_iff_of_holds
    (configured : workspace.holds location Config.fileName = true) :
    workspace.configRootFrom? location.reverse = some root ↔
      workspace.IsNearestConfig location root ∧ workspace.IsOpenWay location root := by
  have self := isNearestConfig_self configured
  rw [configRootFrom?_of_holds configured, Option.some.injEq]
  constructor
  · rintro rfl
    exact ⟨self, fun between starts longer => absurd starts.length_le (Nat.not_le.mpr longer)⟩
  · rintro ⟨nearest, -⟩
    exact self.unique nearest

/-- The search ends at the nearest directory with a configuration, if the way there is open. -/
theorem configRootFrom?_eq_some_iff :
    workspace.configRootFrom? location.reverse = some root ↔
      workspace.IsNearestConfig location root ∧ workspace.IsOpenWay location root := by
  induction location using List.reverseRecOn with
  | nil =>
    by_cases configured : workspace.holds [] Config.fileName = true
    · exact configRootFrom?_eq_some_iff_of_holds configured
    · rw [List.reverse_nil, configRootFrom?, if_neg configured]
      refine iff_of_false (Option.some_ne_none root).symm fun found => configured ?_
      rw [← List.prefix_nil.mp found.1.above]
      exact found.1.configured
  | append_singleton location name inductionHypothesis =>
    by_cases configured : workspace.holds (location ++ [name]) Config.fileName = true
    · exact configRootFrom?_eq_some_iff_of_holds configured
    · rw [configRootFrom?_concat, if_neg configured,
        isNearestConfig_concat_iff (Bool.not_eq_true _ ▸ configured)]
      by_cases marked : workspace.holds (location ++ [name]) repositoryMark = true
      · rw [if_pos marked]
        refine iff_of_false (Option.some_ne_none root).symm fun found => ?_
        have clear := ((isOpenWay_concat_iff found.1.above.length_le).mp found.2).1
        rw [marked] at clear
        cases clear
      · rw [if_neg marked, inductionHypothesis]
        refine and_congr_right fun nearest => ?_
        rw [isOpenWay_concat_iff nearest.above.length_le, and_iff_right]
        exact Bool.not_eq_true _ ▸ marked

theorem configPath?_eq_some_iff {path : String} :
    workspace.configPath? = some path ↔
      ∃ root, workspace.IsNearestConfig workspace.location root ∧
        workspace.IsOpenWay workspace.location root ∧
          path = pathOf (root ++ [Config.fileName]) := by
  rw [configPath?, Option.map_eq_some_iff]
  refine exists_congr fun root => ?_
  rw [configRoot?, configRootFrom?_eq_some_iff, and_assoc, eq_comm]

/-! ### The way back -/

/-- The directory of a configuration that was loaded is the one where the search ended. -/
theorem configRoot?_of_loadConfig {config : Config}
    (loaded : workspace.loadConfig = .ok ⟨config, some root⟩) :
    workspace.configRoot? = some root := by
  unfold loadConfig at loaded
  split at loaded
  · cases loaded
  · rename_i found search
    cases read : workspace.readConfig found with
    | error failure => rw [read] at loaded; cases loaded
    | ok config =>
      rw [read] at loaded
      cases loaded
      exact search

theorem pathUpTo_eq_climb (workspace : Workspace) (root : List String) :
    workspace.pathUpTo root = climb (workspace.location.length - root.length) :=
  rfl

theorem steps_climb (levels : Nat) : steps (climb levels) = List.replicate levels ".." := by
  cases levels with
  | zero => rfl
  | succ levels =>
    rw [climb_succ, steps_join _ rfl (by decide), filter_pieces_climb, List.replicate_succ']
    rfl

theorem climb_eq_empty_iff {levels : Nat} : climb levels = "" ↔ levels = 0 := by
  cases levels with
  | zero => exact iff_of_true rfl rfl
  | succ levels => exact iff_of_false (climb_ne_empty levels) (Nat.succ_ne_zero levels)

/-- The way up leads from the working directory to the directory above. -/
theorem follow_pathUpTo (folder : workspace.disk.IsFolderAt workspace.location)
    (above : root <+: workspace.location) :
    workspace.follow workspace.location (steps (workspace.pathUpTo root)) = .ok root := by
  obtain ⟨below, whole⟩ := above
  have levels : workspace.location.length - root.length = below.length := by
    rw [← whole, List.length_append]
    omega
  rw [← whole] at folder
  have climbed := follow_climb workspace.location root below [] folder
  rw [pathUpTo_eq_climb, levels, steps_climb]
  rwa [List.append_nil, whole] at climbed

/-- From any working directory of any disk, the configuration that is found is that of the nearest
directory at or above it that has one, if no directory below that one on the way is the top of a
repository; otherwise none is found. If it is loaded, the way up from the working directory is one
step for each level, it leads to the directory of the configuration, and it is empty exactly if
that is the working directory. -/
theorem nearest_config_governs (workspace : Workspace) :
    (∀ path, workspace.configPath? = some path ↔
      ∃ root, workspace.IsNearestConfig workspace.location root ∧
        workspace.IsOpenWay workspace.location root ∧
        path = pathOf (root ++ [Config.fileName])) ∧
    (workspace.configPath? = none ↔
      ∀ root, workspace.IsNearestConfig workspace.location root →
        ¬workspace.IsOpenWay workspace.location root) ∧
    ∀ config root, workspace.loadConfig = .ok ⟨config, some root⟩ →
      workspace.configPath? = some (pathOf (root ++ [Config.fileName])) ∧
      steps (workspace.pathUpTo root) =
        List.replicate (workspace.location.length - root.length) ".." ∧
      (workspace.pathUpTo root = "" ↔ workspace.location = root) ∧
      (workspace.disk.IsFolderAt workspace.location →
        workspace.follow workspace.location (steps (workspace.pathUpTo root)) = .ok root) := by
  refine ⟨fun path => configPath?_eq_some_iff, ?_, fun config root loaded => ?_⟩
  · rw [Option.eq_none_iff_forall_ne_some]
    constructor
    · intro none root nearest openWay
      exact none _ (configPath?_eq_some_iff.mpr ⟨root, nearest, openWay, rfl⟩)
    · intro closed path found
      obtain ⟨root, nearest, openWay, -⟩ := configPath?_eq_some_iff.mp found
      exact closed root nearest openWay
  · have search := configRoot?_of_loadConfig loaded
    have above : root <+: workspace.location := (configRootFrom?_eq_some_iff.mp search).1.above
    refine ⟨by rw [configPath?, search, Option.map_some], steps_climb _, ?_,
      fun folder => follow_pathUpTo folder above⟩
    rw [pathUpTo_eq_climb, climb_eq_empty_iff, Nat.sub_eq_zero_iff_le]
    constructor
    · exact fun atMost => (above.eq_of_length_le atMost).symm
    · exact fun same => same ▸ Nat.le_refl _

end Workspace

/-- A repository with a configuration, and a directory of sources two levels below. -/
def nestedProject : Directory :=
  .folder "repo"
    (.folder ".git" .empty
      (.file Config.fileName "\x7b\"includes\":[\"lib\"]\x7d".toUTF8
        (.folder "src" (.folder "lib" .empty .empty) .empty)))
    .empty

theorem config_governs_nestedProject :
    (nestedProject.openedAt ["repo", "src", "lib"]).loadConfig =
        .ok ⟨{ includes := ["lib"] }, some ["repo"]⟩ ∧
      nestedProject.IsFolderAt ["repo", "src", "lib"] ∧
      (nestedProject.openedAt ["repo", "src", "lib"]).configPath? =
        some "/repo/.docliftrc.json" ∧
      (nestedProject.openedAt ["repo", "src", "lib"]).pathUpTo ["repo"] = "../.." ∧
      (nestedProject.openedAt ["repo", "src", "lib"]).follow ["repo", "src", "lib"] ["..", ".."] =
        .ok ["repo"] := by
  have loaded : (nestedProject.openedAt ["repo", "src", "lib"]).loadConfig =
      .ok ⟨{ includes := ["lib"] }, some ["repo"]⟩ := by
    decide +kernel
  have folder : nestedProject.IsFolderAt ["repo", "src", "lib"] := ⟨_, rfl⟩
  obtain ⟨found, steps, -, leads⟩ :=
    (Workspace.nearest_config_governs (nestedProject.openedAt ["repo", "src", "lib"])).2.2
      _ _ loaded
  have led := leads folder
  rw [steps] at led
  exact ⟨loaded, folder, found, rfl, led⟩

/-- Above the top of a repository nothing is searched. -/
example :
    ((Directory.file Config.fileName ByteArray.empty nestedProject).openedAt
      ["repo", "src"]).configPath? = some "/repo/.docliftrc.json" ∧
    ((Directory.file Config.fileName ByteArray.empty
      (.folder "repo" (.folder ".git" .empty .empty) .empty)).openedAt ["repo"]).configPath? =
        none := by
  decide

end DocEntities
