/-
This file builds namepaths, the identifiers of documented entities. The dotted path
`Player.prototype.play` is documented as `Player#play`: a `prototype` segment with an
owner in front becomes the instance separator `#`, and `.` separates static members.
The last name of an event carries the mark `event:`.

A path is read as its list of segments. A `prototype` segment takes the separators on
both of its sides with it, so the segment after it is never itself read as a prototype.
-/

import DocEntities.Kind
import DocEntities.Text.Split

namespace DocEntities.Namepath

/-- The segment through which the members of instances are reached. -/
def prototypeSegment : String := "prototype"

/-- The namepath text of the segments that follow the first one. -/
def renderTail : List String → String
  | [] => ""
  | [segment] => if segment == prototypeSegment then "#" else "." ++ segment
  | segment :: next :: rest =>
    if segment == prototypeSegment then "#" ++ next ++ renderTail rest
    else "." ++ segment ++ renderTail (next :: rest)

/-- The namepath text of a list of segments. -/
def ofSegments : List String → String
  | [] => ""
  | segment :: rest => segment ++ renderTail rest

/-- The segments of a dotted path, empty ones included. -/
def segments (path : String) : List String :=
  Text.splitOnChar '.' path

/-- The namepath of a dotted member path. -/
def ofPath (path : String) : String :=
  ofSegments (segments path)

/-- The segments without a closing `prototype`, if they have an owner for it. -/
def dropPrototype : List String → List String
  | [] => []
  | [segment] => [segment]
  | [owner, last] => if last == prototypeSegment then [owner] else [owner, last]
  | segment :: next :: rest => segment :: dropPrototype (next :: rest)

/-- The namepath of a container. The members of a prototype are documented as members of its
owner, so one closing `prototype` segment is dropped first. -/
def ofContainer (path : String) : String :=
  ofSegments (dropPrototype (segments path))

/-- Whether the last instance separator of a text has something behind it. -/
def hasInstanceTail : List Char → Bool
  | [] => false
  | c :: rest =>
    if c == '#' && !rest.contains '#' then !rest.isEmpty else hasInstanceTail rest

/-- Whether a namepath names an instance member, such as `a#b` or `a#b.c`. -/
def isInstance (id : String) : Bool :=
  hasInstanceTail id.toList

/-- The mark before the name of an event. -/
def eventMark : String := "event:"

/-- The namepath of an entity. An empty container counts as none. -/
def ofParts (container : Option String) (name : String) (instanceMember : Bool)
    (kind : Option Kind) : String :=
  let marked := if kind = some .event then eventMark ++ name else name
  match container with
  | none => marked
  | some owner =>
    if owner.isEmpty then marked
    else owner ++ (if instanceMember then "#" else ".") ++ marked

end DocEntities.Namepath
