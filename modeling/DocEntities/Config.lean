/-
This file holds the configuration of a project: its defaults, its JSON form in both
directions, and the check that its patterns are patterns. Every field may be missing; a list
gives the fields in order, as far as it goes.
-/

import DocEntities.Failure
import DocEntities.Json.Entities
import DocEntities.Options

namespace DocEntities

open Json

/-- The word for a way of resolving. -/
def Resolution.name : Resolution → String
  | .singleSweep => "singleSweep"
  | .fixedPoint => "fixedPoint"

/-- The way of resolving that a word stands for. -/
def Resolution.ofName? (word : String) : Option Resolution :=
  [Resolution.singleSweep, Resolution.fixedPoint].find? (fun mode => mode.name == word)

/-- The configuration of a project. -/
structure Config where
  includes : List String := ["src"]
  ignores : List String := ["**/node_modules/**", "**/*.min.js"]
  /-- What comes before the path of a file in its address. -/
  baseUrl : Option String := none
  utilityNamespaces : List String := defaultUtilityNamespaces
  resolution : Resolution := .singleSweep
  deriving DecidableEq, Repr, Inhabited

namespace Config

/-- The name of the file that holds the configuration of a project. -/
def fileName : String := ".docliftrc.json"

/-- The configuration of a project that has none. -/
def default : Config := {}

/-- A configuration as JSON. -/
def toJson (config : Config) : Json :=
  .object
    (("includes", texts config.includes) :: ("ignores", texts config.ignores) ::
      (whenSome "baseUrl" (config.baseUrl.map .text) ++
        [("utilityNamespaces", texts config.utilityNamespaces),
          ("resolution", .text config.resolution.name)]))

/-- The text of the default configuration. -/
def defaultText : String :=
  default.toJson.render Layout.pretty

end Config

namespace Json.Reader

/-- A way of resolving. -/
def resolution : Reader Resolution :=
  choice Resolution.ofName?

/-- One member of a configuration. -/
def configMember (key : String) (state : List String × Config) : Reader (List String × Config) :=
  let (seen, config) := state
  if key == "includes" then once seen key textList ({ config with includes := · })
  else if key == "ignores" then once seen key textList ({ config with ignores := · })
  else if key == "baseUrl" then once seen key (nullable text) ({ config with baseUrl := · })
  else if key == "utilityNamespaces" then
    once seen key textList ({ config with utilityNamespaces := · })
  else if key == "resolution" then once seen key resolution ({ config with resolution := · })
  else ignored state

/-- The fields of a configuration in order, as far as they go. -/
def configFields : Reader Config := do
  drop
  let includes ← nextField true textList
  let ignores ← nextField includes.isNone textList
  let baseUrl ← nextField ignores.isNone (nullable text)
  let namespaces ← nextField baseUrl.isNone textList
  let resolution ← nextField namespaces.isNone resolution
  listEnd
  return {
    includes := includes.getD Config.default.includes
    ignores := ignores.getD Config.default.ignores
    baseUrl := baseUrl.getD none
    utilityNamespaces := namespaces.getD Config.default.utilityNamespaces
    resolution := resolution.getD Config.default.resolution }

/-- A configuration. -/
def config : Reader Config := do
  match ← peek with
  | some '\x7b' => return (← object configMember ([], Config.default)).2
  | some '[' => configFields
  | _ => wrongType

end Json.Reader

namespace Config

/-- Reads a configuration from a text. -/
def ofText (text : String) : Except Json.Fault Config :=
  Json.Reader.config.run text

/-- Checks that a text of one of the lists is a pattern. -/
def checkPattern (list : PatternList) (pattern : String) : Except Failure Unit :=
  match Glob.ofText pattern with
  | .ok _ => .ok ()
  | .error invalid => .error (.patternInvalid list pattern invalid)

/-- Checks the patterns of a configuration: everything to ignore, then what is included, where
a text without wildcards is a plain path. -/
def validate (config : Config) : Except Failure Unit := do
  config.ignores.forM (checkPattern .ignores)
  (config.includes.filter Glob.isPattern).forM (checkPattern .includes)

/-- The options that a configuration gives for reading sources. -/
def options (config : Config) : Options :=
  { utilityNamespaces := config.utilityNamespaces, resolution := config.resolution }

end Config

end DocEntities
