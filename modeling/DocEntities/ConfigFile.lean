/-
This file finds and reads the configuration that holds for a place on the disk: the one in the
nearest directory at or above it. The search does not leave a repository: a directory that
holds `.git` is the last one looked at.
-/

import DocEntities.Config
import DocEntities.Disk

namespace DocEntities

/-- A configuration, and the directory it was found in. -/
structure Configured where
  config : Config
  /-- Missing if no configuration was found and the defaults are used. -/
  root : Option (List String)
  deriving DecidableEq, Repr, Inhabited

namespace Workspace

/-- The entry whose presence marks the top directory of a repository. -/
def repositoryMark : String := ".git"

/-- Whether the directory at a place has an entry of a name. -/
def holds (workspace : Workspace) (location : List String) (name : String) : Bool :=
  (workspace.nodeAt? (location ++ [name])).isSome

/-- The nearest directory with a configuration, at or above the place whose names are given
from the last to the first. -/
def configRootFrom? (workspace : Workspace) : List String → Option (List String)
  | [] => if workspace.holds [] Config.fileName then some [] else none
  | name :: above =>
    let location := (name :: above).reverse
    if workspace.holds location Config.fileName then some location
    else if workspace.holds location repositoryMark then none
    else workspace.configRootFrom? above

/-- The directory whose configuration holds for the working directory. -/
def configRoot? (workspace : Workspace) : Option (List String) :=
  workspace.configRootFrom? workspace.location.reverse

/-- The path of a place from the top of the disk. -/
def pathOf (location : List String) : String :=
  "/" ++ Text.join "/" location

/-- The path of the configuration that holds for the working directory. -/
def configPath? (workspace : Workspace) : Option String :=
  workspace.configRoot?.map (fun root => pathOf (root ++ [Config.fileName]))

/-- Reads the configuration in a directory. -/
def readConfig (workspace : Workspace) (root : List String) : Except Failure Config := do
  let path := pathOf (root ++ [Config.fileName])
  match workspace.readText path with
  | .error fault => throw (.configUnreadable path fault)
  | .ok text =>
    match Config.ofText text with
    | .error fault => throw (.configInvalid path fault)
    | .ok config =>
      config.validate
      return config

/-- The configuration that holds for the working directory. -/
def loadConfig (workspace : Workspace) : Except Failure Configured := do
  match workspace.configRoot? with
  | none => return ⟨Config.default, none⟩
  | some root => return ⟨← workspace.readConfig root, some root⟩

end Workspace

end DocEntities
