/-
This file says which characters make up words. Two notions are needed: the word characters
of text patterns, and the characters of identifiers in code, where the first character is
held to a narrower rule. Both start from the same Unicode categories; ASCII is decided
without a table.
-/

import DocEntities.Text.LetterRanges
import DocEntities.Text.MarkRanges

namespace DocEntities.Text

/-- Whether a code point lies in one of the ranges. -/
def inRanges (ranges : List (Nat × Nat)) (code : Nat) : Bool :=
  ranges.any (fun range => range.1 ≤ code && code ≤ range.2)

/-- An ASCII letter. -/
def isAsciiLetter (c : Char) : Bool :=
  ('a' ≤ c && c ≤ 'z') || ('A' ≤ c && c ≤ 'Z')

/-- An ASCII decimal digit. -/
def isAsciiDigit (c : Char) : Bool :=
  '0' ≤ c && c ≤ '9'

/-- The two invisible characters that join or part the letters around them. -/
def isJoiner (code : Nat) : Bool :=
  code == 0x200C || code == 0x200D

/-- Letters in circles and squares: symbols by category, alphabetic all the same. -/
def isEnclosedLetter (code : Nat) : Bool :=
  (0x24B6 ≤ code && code ≤ 0x24E9) || (0x1F130 ≤ code && code ≤ 0x1F149) ||
    (0x1F150 ≤ code && code ≤ 0x1F169) || (0x1F170 ≤ code && code ≤ 0x1F189)

/-- A word character: alphabetic characters, marks, decimal digits, connecting punctuation and
the joiners. -/
def isWordChar (c : Char) : Bool :=
  if c.toNat < 0x80 then isAsciiLetter c || isAsciiDigit c || c == '_'
  else
    let code := c.toNat
    inRanges letterRanges code || inRanges markRanges code || inRanges enclosingRanges code ||
      inRanges digitRanges code || inRanges connectorRanges code || isJoiner code ||
      isEnclosedLetter code

/-- Characters that start identifiers although they are no letters. -/
def startsIdentifierToo (code : Nat) : Bool :=
  code == 0x1885 || code == 0x1886 || code == 0x2118 || code == 0x212E || code == 0x309B ||
    code == 0x309C

/-- Whether an identifier may start with a character. -/
def isIdentifierStart (c : Char) : Bool :=
  if c.toNat < 0x80 then isAsciiLetter c || c == '_' || c == '$'
  else
    let code := c.toNat
    (inRanges letterRanges code && code != 0x2E2F) || startsIdentifierToo code

/-- Characters that continue identifiers although they are neither marks nor digits. -/
def continuesIdentifierToo (code : Nat) : Bool :=
  code == 0xB7 || code == 0x387 || (0x1369 ≤ code && code ≤ 0x1371) || code == 0x19DA ||
    code == 0x30FB || code == 0xFF65

/-- Whether an identifier may go on with a character. -/
def isIdentifierPart (c : Char) : Bool :=
  if c.toNat < 0x80 then isAsciiLetter c || isAsciiDigit c || c == '_' || c == '$'
  else
    let code := c.toNat
    isIdentifierStart c || inRanges markRanges code || inRanges digitRanges code ||
      inRanges connectorRanges code || isJoiner code || continuesIdentifierToo code

end DocEntities.Text
