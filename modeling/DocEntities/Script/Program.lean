/-
This file reads whole sources: it ties the parsers of the grammar together, level by level,
and gives the program of a source with its comments and the texts of its lines.
-/

import DocEntities.Script.Grammar.Statement

namespace DocEntities.Script

/-- The grammar one level up. -/
def Grammar.above (below : Grammar) : Grammar where
  assignment := below.assignmentHere
  expression := below.expressionHere
  unary := below.operandHere
  binary := below.binaryHere
  subscripts := below.subscriptsHere
  chain := below.chainHere
  sequence := below.sequenceHere
  arguments := below.argumentsHere
  group := below.groupHere
  elements := below.elementsHere
  entries := below.entriesHere
  members := below.membersHere
  template := below.templateHere
  element := below.elementHere
  attributes := below.attributesHere
  children := below.childrenHere
  pattern := below.patternHere
  patternElements := below.patternElementsHere
  patternEntries := below.patternEntriesHere
  params := below.paramsHere
  statement := below.statementHere
  statements := below.statementsHere
  declarators := below.declaratorsHere
  cases := below.casesHere
  caseBody := below.caseBodyHere
  specifiers := below.specifiersHere
  items := below.itemsHere

/-- The grammar of constructs inside each other up to a depth. -/
def Grammar.ofDepth : Nat → Grammar
  | 0 => .exhausted
  | depth + 1 => (Grammar.ofDepth depth).above

/-- A source that has been read. -/
structure Parsed where
  program : Program
  comments : List SourceComment
  /-- The texts of the lines. -/
  lines : List String

/-- A source without the byte order mark that may open it. -/
def dropByteOrderMark : List Char → List Char
  | '\uFEFF' :: rest => rest
  | text => text

/-- Reads a source, as a script or a module. `elements` says whether elements may be written as
expressions. -/
def parse? (source : String) (elements : Bool) : Option Parsed := do
  let text := dropByteOrderMark source.toList
  let cursor ← Cursor.first? text elements
  let grammar := Grammar.ofDepth (text.length + 4)
  let (items, last) ← grammar.itemsHere { awaitWord := .either } cursor
  return { program := ⟨items⟩, comments := last.comments.reverse, lines := lineTexts text }

end DocEntities.Script
