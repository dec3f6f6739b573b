/-
This file says which characters are blank and how blanks are cut from a text.
Blank means the Unicode property White_Space: the no-break space, the next-line
control and the line and paragraph separators count, the zero-width space and the
byte order mark do not. Trimming works on lists of characters, where it is a
`dropWhile` from either end, and is lifted to strings once.
-/

namespace DocEntities.Text

/-- The Unicode property White_Space. -/
def isSpace (c : Char) : Bool :=
  let code := c.toNat
  (9 ≤ code && code ≤ 13) || code == 0x20 || code == 0x85 || code == 0xA0 || code == 0x1680 ||
    (0x2000 ≤ code && code ≤ 0x200A) || code == 0x2028 || code == 0x2029 || code == 0x202F ||
    code == 0x205F || code == 0x3000

/-- A space or a tab: the blanks that may stand inside one line. -/
def isInlineBlank (c : Char) : Bool :=
  c == ' ' || c == '\t'

/-- Drops the blanks in front. -/
def trimStart (text : List Char) : List Char :=
  text.dropWhile isSpace

/-- Drops the blanks behind. -/
def trimEnd (text : List Char) : List Char :=
  (text.reverse.dropWhile isSpace).reverse

/-- Drops the blanks on both sides. -/
def trimmed (text : List Char) : List Char :=
  trimEnd (trimStart text)

/-- Drops the blanks on both sides of a string. -/
def trim (text : String) : String :=
  String.ofList (trimmed text.toList)

/-- The maximal runs of characters that are not blank, in order. -/
def words : List Char → List (List Char)
  | [] => []
  | c :: rest =>
    if isSpace c then words rest
    else
      match rest with
      | [] => [[c]]
      | next :: _ =>
        if isSpace next then [c] :: words rest
        else
          match words rest with
          | [] => [[c]]
          | word :: more => (c :: word) :: more

/-- A text that is present only if it is not empty. -/
def nonEmpty? (text : List Char) : Option String :=
  if text.isEmpty then none else some (String.ofList text)

end DocEntities.Text
