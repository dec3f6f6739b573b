/-
This file holds glob patterns: their grammar, the ways in which a text fails to be one, and
what they match. A `?` stands for any character and a `*` for any text, separators of path
components included; `**` as a whole component stands for any number of components; and
brackets stand for one of the characters they list, or with `!` for any other.

Matching is a plain reading of that: a pattern matches a text if its first part matches some
start of the text and the other parts match the rest.
-/

namespace DocEntities

namespace Glob

/-- The characters that brackets list: single ones and ranges. -/
inductive Specifier where
  | single (c : Char)
  | range (first last : Char)
  deriving DecidableEq, Repr, Inhabited

/-- Whether a specifier lists a character. -/
def Specifier.lists : Specifier → Char → Bool
  | .single c, other => c == other
  | .range first last, other => first ≤ other && other ≤ last

/-- The parts of a pattern. -/
inductive Part where
  | exactly (c : Char)
  | anyChar
  | anyText
  /-- Any number of whole components, with the separator behind them. -/
  | anyComponents
  | oneOf (specifiers : List Specifier)
  | noneOf (specifiers : List Specifier)
  deriving DecidableEq, Repr, Inhabited

/-- What is wrong with a text that is no pattern. -/
inductive Complaint where
  | tooManyStars
  | partialComponent
  | badRange
  deriving DecidableEq, Repr, Inhabited

/-- A text that is no pattern, and the character where that shows. -/
structure Invalid where
  position : Nat
  complaint : Complaint
  deriving DecidableEq, Repr, Inhabited

/-- The wording of what is wrong. -/
def Complaint.message : Complaint → String
  | .tooManyStars => "wildcards are either regular `*` or recursive `**`"
  | .partialComponent => "recursive wildcards must form a single path component"
  | .badRange => "invalid range pattern"

/-- The wording of an invalid pattern. -/
def Invalid.message (invalid : Invalid) : String :=
  "Pattern syntax error near position " ++ toString invalid.position ++ ": " ++
    invalid.complaint.message

/-! ### Reading patterns -/

/-- The specifiers that the inside of brackets lists. -/
def specifiers : List Char → List Specifier
  | first :: '-' :: last :: rest => .range first last :: specifiers rest
  | c :: rest => .single c :: specifiers rest
  | [] => []

/-- The inside of brackets, whose first character may be a closing bracket, and what follows
them. -/
def bracketed? : List Char → Option (List Char × List Char)
  | [] => none
  | first :: rest =>
    match rest.dropWhile (· != ']') with
    | [] => none
    | _ :: after => some (first :: rest.takeWhile (· != ']'), after)

/-- The part that brackets stand for, given what follows the opening one, and what follows the
closing one. -/
def bracketPart? : List Char → Option (Part × List Char)
  | '!' :: inside => (bracketed? inside).map (fun found => (.noneOf (specifiers found.1), found.2))
  | inside => (bracketed? inside).map (fun found => (.oneOf (specifiers found.1), found.2))

/-- Adds the part for whole components. Several in a row are one, except at the very start. -/
def addComponents (parts : List Part) : List Part :=
  match parts with
  | .anyComponents :: _ :: _ => parts
  | _ => .anyComponents :: parts

/-- Reads the parts of a pattern. `position` counts the characters before `text`, `previous` is
the last of them, and `parts` holds the parts so far, the last one first. Every step takes a
character at least, so the length of the text bounds the steps. -/
def readParts : Nat → Nat → Option Char → List Part → List Char → Except Invalid (List Part)
  | 0, _, _, parts, _ => .ok parts.reverse
  | bound + 1, position, previous, parts, text =>
    match text with
    | [] => .ok parts.reverse
    | '?' :: rest => readParts bound (position + 1) (some '?') (.anyChar :: parts) rest
    | '*' :: rest =>
      let more := rest.takeWhile (· == '*')
      let after := rest.dropWhile (· == '*')
      let count := more.length + 1
      if count > 2 then .error ⟨position + 2, .tooManyStars⟩
      else if count == 1 then
        readParts bound (position + 1) (some '*') (.anyText :: parts) after
      else if previous.isNone || previous == some '/' then
        match after with
        | [] => readParts bound (position + 2) (some '*') (addComponents parts) []
        | '/' :: behind =>
          readParts bound (position + 3) (some '/') (addComponents parts) behind
        | _ => .error ⟨position + 2, .partialComponent⟩
      else .error ⟨position - 1, .partialComponent⟩
    | '[' :: rest =>
      match bracketPart? rest with
      | none => .error ⟨position, .badRange⟩
      | some (part, after) =>
        readParts bound (position + 1 + (rest.length - after.length)) (some ']') (part :: parts)
          after
    | c :: rest => readParts bound (position + 1) (some c) (.exactly c :: parts) rest

end Glob

/-- A glob pattern. -/
structure Glob where
  parts : List Glob.Part
  deriving DecidableEq, Repr, Inhabited

namespace Glob

/-- Reads a pattern. -/
def ofText (text : String) : Except Invalid Glob :=
  match readParts (text.toList.length + 1) 0 none [] text.toList with
  | .ok parts => .ok ⟨parts⟩
  | .error invalid => .error invalid

/-- Whether a text has a character with a meaning in patterns that names a set of paths. -/
def isPattern (text : String) : Bool :=
  text.toList.any (fun c => c == '*' || c == '?')

/-! ### Matching -/

/-- Whether a part that stands for one character stands for this one. -/
def Part.matchesChar : Part → Char → Bool
  | .exactly c, other => c == other
  | .anyChar, _ => true
  | .oneOf listed, other => listed.any (fun specifier => specifier.lists other)
  | .noneOf listed, other => !listed.any (fun specifier => specifier.lists other)
  | .anyText, _ => false
  | .anyComponents, _ => false

/-- Whether `accepts` holds of the text or of something left of it after dropping characters. -/
def anySuffix (accepts : List Char → Bool) : List Char → Bool
  | [] => accepts []
  | c :: rest => accepts (c :: rest) || anySuffix accepts rest

/-- Whether `accepts` holds of the empty text or of what follows some separator. -/
def anyComponentStart (accepts : List Char → Bool) : List Char → Bool
  | [] => accepts []
  | c :: rest => (c == '/' && accepts rest) || anyComponentStart accepts rest

/-- Whether parts match a whole text. -/
def matchParts : List Part → List Char → Bool
  | [] => fun text => text.isEmpty
  | .anyText :: parts => anySuffix (matchParts parts)
  | .anyComponents :: parts => fun text =>
    matchParts parts text || anyComponentStart (matchParts parts) text
  | part :: parts => fun text =>
    match text with
    | [] => false
    | c :: rest => part.matchesChar c && matchParts parts rest

/-- Whether a pattern matches a whole text. -/
def accepts (glob : Glob) (text : String) : Bool :=
  matchParts glob.parts text.toList

end Glob

end DocEntities
