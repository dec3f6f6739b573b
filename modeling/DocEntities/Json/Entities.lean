/-
This file writes entities and tables as JSON and reads entities back. Fields with nothing to
say are left out; remarks follow the fields as members of the entity itself, so a remark
whose key is the name of a field makes that key stand twice. A reader takes the fields in any
order, once each; a list stands for a parameter, a returned value or an origin if it gives
their fields in order.
-/

import DocEntities.Json.Reader
import DocEntities.Json.Value
import DocEntities.Table

namespace DocEntities

open Json

/-! ### Writing -/

/-- A parameter as JSON. -/
def Param.toJson (param : Param) : Json :=
  .object
    (whenSome "types" (param.types.map texts) ++ whenSome "name" (param.name.map .text) ++
      whenSome "description" (param.description.map .text) ++ whenTrue "optional" param.optional)

/-- A returned value as JSON. -/
def Returned.toJson (returned : Returned) : Json :=
  .object
    (whenSome "types" (returned.types.map texts) ++
      whenSome "description" (returned.description.map .text))

/-- An origin as JSON. -/
def Origin.toJson (origin : Origin) : Json :=
  .object
    (("line", .number origin.line) :: (whenSome "url" (origin.url.map .text) ++
      whenSome "name" (origin.name.map .text)))

/-- A remark as JSON. -/
def Remark.toJson : Remark → Json
  | .text value => .text value
  | .flag value => .flag value

/-- A list that is left out if it is empty. -/
def listed (values : List Json) : Option Json :=
  if values.isEmpty then none else some (.list values)

/-- The members of an entity in the order in which they are written, remarks last. -/
def Entity.members (entity : Entity) : List (String × Json) :=
  ("id", .text entity.id) :: (whenSome "kind" (entity.kind.map (fun kind => .text kind.name)) ++
    ("name", .text entity.name) :: (whenSome "container" (entity.container.map .text) ++
      whenTrue "isInstanceMember" entity.isInstanceMember ++
      whenSome "inheritsFrom" (entity.inheritsFrom.map .text) ++
      whenSome "params" (listed (entity.params.map Param.toJson)) ++
      whenSome "returns" (listed (entity.returns.map Returned.toJson)) ++
      whenSome "types" (entity.types.map texts) ++
      whenSome "description" (entity.description.map .text) ++
      whenSome "summary" (entity.summary.map .text) ++
      whenTrue "deprecated" entity.deprecated ++ whenTrue "inheritdoc" entity.inheritdoc ++
      ("source", entity.source.toJson) ::
        entity.remarks.entries.map (fun entry => (entry.1, entry.2.toJson))))

/-- An entity as JSON. -/
def Entity.toJson (entity : Entity) : Json :=
  .object entity.members

/-- A table as JSON: its entities under their namepaths, in table order. -/
def Table.toJson (table : Table) : Json :=
  .object (table.entries.map (fun entity => (entity.id, entity.toJson)))

/-! ### Reading -/

namespace Json.Reader

/-- A list of texts. -/
def textList : Reader (List String) :=
  list text

/-- Takes the value of a field, which may come once. -/
def once {α σ : Type} (seen : List String) (key : String) (value : Reader α)
    (put : α → σ) : Reader (List String × σ) := do
  if seen.contains key then fail .data
  else
    colon
    let found ← value
    return (key :: seen, put found)

/-- Takes the value of a field of no interest. -/
def ignored {σ : Type} (state : List String × σ) : Reader (List String × σ) := do
  colon
  skip
  return state

/-- The next item of a list that gives fields in order, if there is one. -/
def nextField {α : Type} (first : Bool) (value : Reader α) : Reader (Option α) := do
  if ← moreItems first then return some (← value) else return none

/-- One member of a parameter. -/
def paramMember (key : String) (state : List String × Param) : Reader (List String × Param) :=
  let (seen, param) := state
  if key == "types" then once seen key (nullable textList) ({ param with types := · })
  else if key == "name" then once seen key (nullable text) ({ param with name := · })
  else if key == "description" then once seen key (nullable text) ({ param with description := · })
  else if key == "optional" then once seen key flag ({ param with optional := · })
  else ignored state

/-- The fields of a parameter in order. -/
def paramFields : Reader Param := do
  drop
  let types ← nextField true (nullable textList)
  let name ← nextField types.isNone (nullable text)
  let description ← nextField name.isNone (nullable text)
  let optional ← nextField description.isNone flag
  listEnd
  return ⟨types.getD none, name.getD none, description.getD none, optional.getD false⟩

/-- A parameter. -/
def param : Reader Param := do
  match ← peek with
  | some '\x7b' => return (← object paramMember ([], {})).2
  | some '[' => paramFields
  | _ => wrongType

/-- One member of a returned value. -/
def returnedMember (key : String) (state : List String × Returned) :
    Reader (List String × Returned) :=
  let (seen, returned) := state
  if key == "types" then once seen key (nullable textList) ({ returned with types := · })
  else if key == "description" then
    once seen key (nullable text) ({ returned with description := · })
  else ignored state

/-- The fields of a returned value in order. -/
def returnedFields : Reader Returned := do
  drop
  let types ← nextField true (nullable textList)
  let description ← nextField types.isNone (nullable text)
  listEnd
  return ⟨types.getD none, description.getD none⟩

/-- A returned value. -/
def returned : Reader Returned := do
  match ← peek with
  | some '\x7b' => return (← object returnedMember ([], {})).2
  | some '[' => returnedFields
  | _ => wrongType

/-- One member of an origin. -/
def originMember (key : String) (state : List String × Origin) :
    Reader (List String × Origin) :=
  let (seen, origin) := state
  if key == "line" then once seen key natural ({ origin with line := · })
  else if key == "url" then once seen key (nullable text) ({ origin with url := · })
  else if key == "name" then once seen key (nullable text) ({ origin with name := · })
  else ignored state

/-- The fields of an origin in order; the line cannot be missing. -/
def originFields : Reader Origin := do
  drop
  match ← nextField true natural with
  | none => fail .data
  | some line =>
    let url ← nextField false (nullable text)
    let name ← nextField url.isNone (nullable text)
    listEnd
    return ⟨line, url.getD none, name.getD none⟩

/-- An origin. Its line cannot be missing. -/
def origin : Reader Origin := do
  match ← peek with
  | some '\x7b' =>
    let (seen, found) ← object originMember ([], {})
    if seen.contains "line" then return found else fail .data
  | some '[' => originFields
  | _ => wrongType

/-- An entity while its members are read: the fields seen, what they say, and the members that
are no field. -/
structure Draft where
  entity : Entity := { id := "", name := "", source := {} }
  kept : List (String × Kept) := []

/-- How deep the lists and objects of a member that is no field may be. -/
def keptDepth : Nat := 126

/-- One member of an entity. -/
def entityMember (key : String) (state : List String × Draft) : Reader (List String × Draft) :=
  let (seen, draft) := state
  let entity := draft.entity
  let field {α : Type} (value : Reader α) (put : α → Entity) : Reader (List String × Draft) :=
    once seen key value (fun found => { draft with entity := put found })
  if key == "id" then field text ({ entity with id := · })
  else if key == "kind" then field (nullable (choice Kind.ofName?)) ({ entity with kind := · })
  else if key == "name" then field text ({ entity with name := · })
  else if key == "container" then field (nullable text) ({ entity with container := · })
  else if key == "isInstanceMember" then field flag ({ entity with isInstanceMember := · })
  else if key == "inheritsFrom" then field (nullable text) ({ entity with inheritsFrom := · })
  else if key == "params" then field (list param) ({ entity with params := · })
  else if key == "returns" then field (list returned) ({ entity with returns := · })
  else if key == "types" then field (nullable textList) ({ entity with types := · })
  else if key == "description" then field (nullable text) ({ entity with description := · })
  else if key == "summary" then field (nullable text) ({ entity with summary := · })
  else if key == "deprecated" then field flag ({ entity with deprecated := · })
  else if key == "inheritdoc" then field flag ({ entity with inheritdoc := · })
  else if key == "source" then field origin ({ entity with source := · })
  else do
    colon
    let value ← keep keptDepth
    return (seen, { draft with kept := draft.kept ++ [(key, value)] })

/-- The remark that a kept value says, if it is of a type that remarks have. -/
def Kept.toRemark? : Kept → Option Remark
  | .text value => some (.text value)
  | .flag value => some (.flag value)
  | .other => none

/-- The remarks of the members that are no field. -/
def remarks? (kept : List (String × Kept)) : Option Remarks :=
  let named (entry : String × Kept) : Option (String × Remark) :=
    entry.2.toRemark?.map (fun remark => (entry.1, remark))
  (kept.mapM named).map Remarks.ofList

/-- An entity. Its namepath, its name and its origin cannot be missing. -/
def entity : Reader Entity := do
  match ← peek with
  | some '\x7b' =>
    let (seen, draft) ← object entityMember ([], {})
    if seen.contains "id" && seen.contains "name" && seen.contains "source" then
      match remarks? draft.kept with
      | some remarks => return { draft.entity with remarks := remarks }
      | none => fail .data
    else fail .data
  | _ => wrongType

end Json.Reader

/-- Reads an entity from a text. -/
def Entity.ofText (text : String) : Except Json.Fault Entity :=
  Json.Reader.entity.run text

end DocEntities
