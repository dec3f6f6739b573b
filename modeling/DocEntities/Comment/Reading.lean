/-
This file reads the evidence out of a documentation comment. A comment is a description
followed by tags, each at the start of a line; the first paragraph of the description is
the summary. Reading never fails: what does not look like a tag leaves its fields open.

Each tag name has a role, the field that the tag writes. A kind tag writes the kind and,
if it has a text, the name; a tag without a role is kept as a remark.
-/

import DocEntities.Comment.Tag
import DocEntities.Evidence

namespace DocEntities

/-- What a tag of a given name writes. -/
inductive TagRole where
  | kind (kind : Kind)
  | param
  | returns
  | name
  | deprecated
  | inheritsFrom
  | types
  | instanceMember
  | description
  | summary
  | inheritdoc
  | container
  | remark
  deriving DecidableEq, Repr

namespace TagRole

/-- Whether two words agree when ASCII letters are compared without regard to case. -/
def sameIgnoringCase (first second : String) : Bool :=
  first.toList.map Char.toLower == second.toList.map Char.toLower

/-- The role of a tag name. -/
def ofName (name : String) : TagRole :=
  match Kind.ofTag? name with
  | some found => .kind found
  | none =>
    if name == "param" then .param
    else if name == "return" || name == "returns" then .returns
    else if name == "name" then .name
    else if name == "deprecated" then .deprecated
    else if name == "extends" || name == "augments" || name == "inherits" then .inheritsFrom
    else if name == "type" then .types
    else if name == "instance" then .instanceMember
    else if name == "description" then .description
    else if name == "summary" then .summary
    else if sameIgnoringCase name "inheritdoc" then .inheritdoc
    else if sameIgnoringCase name "memberof" then .container
    else .remark

end TagRole

namespace Evidence

/-- The evidence after one more tag. -/
def applyTag (evidence : Evidence) (tag : Tag) : Evidence :=
  match TagRole.ofName tag.name with
  | .kind kind => { evidence with kind := some kind, name := tag.description.or evidence.name }
  | .param => { evidence with params := evidence.params ++ tag.param?.toList }
  | .returns =>
    if tag.isBare then evidence
    else { evidence with returns := evidence.returns ++ [⟨tag.types, tag.description⟩] }
  | .name => { evidence with name := tag.description }
  | .deprecated => { evidence with deprecated := some true }
  | .inheritsFrom => { evidence with inheritsFrom := tag.description }
  | .types => { evidence with types := tag.types }
  | .instanceMember => { evidence with isInstanceMember := some true }
  | .description => { evidence with description := tag.description }
  | .summary => { evidence with summary := tag.description }
  | .inheritdoc => { evidence with inheritdoc := some true }
  | .container => { evidence with container := tag.description }
  | .remark =>
    { evidence with
      remarks := evidence.remarks.insert tag.name
        (match tag.description with
          | some text => .text text
          | none => .flag true) }

/-- The evidence of tags applied in order to nothing. -/
def ofTags (tags : List Tag) : Evidence :=
  tags.foldl applyTag empty

/-- The evidence of a block of tags. A tag starts at the start of the block and at every at
sign that opens a line. -/
def ofTagBlock (block : List Char) : Evidence :=
  ofTags ((Text.splitPair '\n' '@' block).filterMap (fun piece => Tag.read? (String.ofList piece)))

/-- The evidence of a description: all of it, and its first paragraph as the summary. -/
def ofDescription (description : List Char) : Evidence :=
  { description := some (String.ofList description)
    summary := some (String.ofList (Text.beforePair '\n' '\n' description)) }

/-- The evidence of a comment whose marks have been taken out. -/
def ofComment (text : String) : Evidence :=
  let body := Text.trimmed text.toList
  match body with
  | '@' :: _ => ofTagBlock body
  | _ =>
    match Text.splitPair '\n' '@' body with
    | [] => ofDescription []
    | first :: pieces =>
      let described := ofDescription (Text.trimmed first)
      let block := Text.joinWith ['\n', '@'] pieces
      if block.isEmpty then described else described.merge (ofTagBlock block)

end Evidence

end DocEntities
