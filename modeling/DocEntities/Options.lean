/-
This file holds the options of reading one source.
-/

import DocEntities.Resolution

namespace DocEntities

/-- The namespaces whose `extend` copies properties and defines no class. -/
def defaultUtilityNamespaces : List String := ["_"]

/-- How a source is read. -/
structure Options where
  /-- The address recorded as the origin of every entity. -/
  sourceUrl : Option String := none
  /-- The file name recorded as the origin of every entity. -/
  sourceName : Option String := none
  /-- Paths whose `extend` defines no class. -/
  utilityNamespaces : List String := defaultUtilityNamespaces
  resolution : Resolution := .singleSweep
  deriving DecidableEq, Repr, Inhabited

end DocEntities
