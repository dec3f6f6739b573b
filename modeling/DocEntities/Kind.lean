/-
This file holds the kinds of documented entities and the tag names that set them.
-/

namespace DocEntities

/-- What a documented entity is. -/
inductive Kind where
  | classKind
  | constant
  | event
  | external
  | file
  | function
  | member
  | mixin
  | module
  | namespaceKind
  deriving DecidableEq, Repr, Inhabited

namespace Kind

/-- The word that stands for a kind in tags, in messages and in written entities. -/
def name : Kind → String
  | .classKind => "class"
  | .constant => "constant"
  | .event => "event"
  | .external => "external"
  | .file => "file"
  | .function => "function"
  | .member => "member"
  | .mixin => "mixin"
  | .module => "module"
  | .namespaceKind => "namespace"

/-- Every kind once. -/
def all : List Kind :=
  [.classKind, .constant, .event, .external, .file, .function, .member, .mixin, .module,
   .namespaceKind]

/-- The kind with a given name, letter for letter. -/
def ofName? (word : String) : Option Kind :=
  all.find? (fun kind => kind.name == word)

/-- The kind that a tag of this name sets: its name, or `method` for a function. -/
def ofTag? (word : String) : Option Kind :=
  if word == "method" then some .function else ofName? word

end Kind

end DocEntities
