/-
This file holds the tokens of a script and reads one token at a time from a list of
characters. Each reader says how many characters its token takes. Whether a slash opens a
regular expression, and where the text of a template goes on, depends on the grammar, so
those two are read only when the grammar asks for them.
-/

import DocEntities.Text.Hex
import DocEntities.Text.Split
import DocEntities.Text.WordChar

namespace DocEntities.Script

/-- A token. -/
inductive Token where
  /-- A name or a keyword; `escaped` if it is spelt with an escape, which no keyword may be. -/
  | word (name : String) (escaped : Bool)
  /-- `#name` -/
  | privateName
  | sign (text : String)
  /-- The number `significand · 10 ^ exponent`. -/
  | number (significand : Nat) (exponent : Int)
  | bigInt
  /-- A string literal; it has no value if it holds half of a surrogate pair. -/
  | text (value : Option String)
  /-- The end of the source. -/
  | done
  deriving DecidableEq, Repr, Inhabited

/-! ### Characters -/

/-- The characters that end a line for the grammar. -/
def isLineTerminator (c : Char) : Bool :=
  c == '\n' || c == '\r' || c.toNat == 0x2028 || c.toNat == 0x2029

/-- The blanks of a script that end no line. -/
def isScriptBlank (c : Char) : Bool :=
  let code := c.toNat
  code == 9 || code == 11 || code == 12 || code == 0x20 || code == 0xA0 || code == 0xFEFF ||
    code == 0x1680 || (0x2000 ≤ code && code ≤ 0x200A) || code == 0x202F || code == 0x205F ||
    code == 0x3000

/-- The value of digits in a base; separators do not count. -/
def digitsValue (base : Nat) (digits : List Char) : Nat :=
  digits.foldl
    (fun value c =>
      match Text.hexValue? c with
      | some digit => value * base + digit
      | none => value)
    0

/-- A digit of a base. -/
def isDigitOf (base : Nat) (c : Char) : Bool :=
  match Text.hexValue? c with
  | some digit => digit < base
  | none => false

/-- Digits of a base and separators. -/
def digitRun (base : Nat) (text : List Char) : List Char :=
  text.takeWhile (fun c => isDigitOf base c || c == '_')

/-! ### Escapes -/

/-- The code point of a Unicode escape, given what follows its `u`, and how many characters it
takes. -/
def unicodeEscape? : List Char → Option (Nat × Nat)
  | '\x7b' :: rest =>
    let digits := rest.takeWhile (isDigitOf 16)
    if digits.isEmpty || rest[digits.length]? != some '\x7d' then none
    else
      let code := digitsValue 16 digits
      if code > 0x10FFFF then none else some (code, digits.length + 2)
  | a :: b :: c :: d :: _ =>
    if [a, b, c, d].all (isDigitOf 16) then some (digitsValue 16 [a, b, c, d], 4) else none
  | _ => none

/-- Whether a code point is the first half of a surrogate pair. -/
def isHighSurrogate (code : Nat) : Bool :=
  0xD800 ≤ code && code ≤ 0xDBFF

/-- Whether a code point is the second half of a surrogate pair. -/
def isLowSurrogate (code : Nat) : Bool :=
  0xDC00 ≤ code && code ≤ 0xDFFF

/-- The characters of code points; surrogates stand for a character in pairs only. -/
def charsOfCodes? : List Nat → Option (List Char)
  | [] => some []
  | [code] =>
    if isHighSurrogate code || isLowSurrogate code then none else some [Char.ofNat code]
  | code :: next :: rest =>
    if isHighSurrogate code then
      if isLowSurrogate next then
        (charsOfCodes? rest).map
          (Char.ofNat (0x10000 + (code - 0xD800) * 0x400 + (next - 0xDC00)) :: ·)
      else none
    else if isLowSurrogate code then none
    else (charsOfCodes? (next :: rest)).map (Char.ofNat code :: ·)

/-- The code points of an escape in a string literal, given what follows its backslash, and how
many characters it takes. A line end stands for nothing. -/
def stringEscape? : List Char → Option (List Nat × Nat)
  | [] => none
  | '\r' :: '\n' :: _ => some ([], 2)
  | 'u' :: rest => (unicodeEscape? rest).map (fun found => ([found.1], found.2 + 1))
  | 'x' :: a :: b :: _ =>
    if isDigitOf 16 a && isDigitOf 16 b then some ([digitsValue 16 [a, b]], 3) else none
  | 'x' :: _ => none
  | c :: rest =>
    if isLineTerminator c then some ([], 1)
    else if c == 'n' then some ([10], 1)
    else if c == 't' then some ([9], 1)
    else if c == 'r' then some ([13], 1)
    else if c == 'b' then some ([8], 1)
    else if c == 'v' then some ([11], 1)
    else if c == 'f' then some ([12], 1)
    else if isDigitOf 8 c then
      let most := if c ≤ '3' then 2 else 1
      let digits := c :: (rest.take most).takeWhile (isDigitOf 8)
      some ([digitsValue 8 digits], digits.length)
    else some ([c.toNat], 1)

/-! ### Words -/

/-- The characters of a word, how many characters it takes, and whether it has an escape. Every
step takes a character at least, so the length of the text bounds the steps. -/
def wordChars? : Nat → List Char → Option (List Char × Nat × Bool)
  | 0, _ => some ([], 0, false)
  | bound + 1, text =>
    match text with
    | '\\' :: 'u' :: rest => do
      let (code, count) ← unicodeEscape? rest
      let c := Char.ofNat code
      if !Text.isIdentifierPart c then none
      else
        let (more, taken, _) ← wordChars? bound (rest.drop count)
        return (c :: more, taken + 2 + count, true)
    | '\\' :: _ => none
    | c :: rest =>
      if Text.isIdentifierPart c then do
        let (more, taken, escaped) ← wordChars? bound rest
        return (c :: more, taken + 1, escaped)
      else some ([], 0, false)
    | [] => some ([], 0, false)

/-- A word at the start of a text of at most `bound` characters. -/
def word? (bound : Nat) (text : List Char) : Option (Token × Nat) := do
  let (name, taken, escaped) ← wordChars? bound text
  match name with
  | [] => none
  | c :: _ =>
    if Text.isIdentifierStart c then some (.word (String.ofList name) escaped, taken) else none

/-! ### String literals -/

/-- The code points of a string literal up to its closing quote, and how many characters it
takes with the quote. -/
def stringCodes? (quote : Char) : Nat → List Char → Option (List Nat × Nat)
  | 0, _ => none
  | bound + 1, text =>
    match text with
    | [] => none
    | '\\' :: rest => do
      let (codes, count) ← stringEscape? rest
      let (more, taken) ← stringCodes? quote bound (rest.drop count)
      return (codes ++ more, taken + count + 1)
    | c :: rest =>
      if c == quote then some ([], 1)
      else if c == '\n' || c == '\r' then none
      else do
        let (more, taken) ← stringCodes? quote bound rest
        return (c.toNat :: more, taken + 1)

/-- A string literal, given its quote and what follows it, at most `bound` characters. -/
def string? (quote : Char) (bound : Nat) (rest : List Char) : Option (Token × Nat) := do
  let (codes, taken) ← stringCodes? quote (bound + 1) rest
  return (.text ((charsOfCodes? codes).map String.ofList), taken + 1)

/-! ### Numbers -/

/-- A number may not run into a word or another digit. -/
def numberEnds (rest : List Char) : Bool :=
  match rest with
  | [] => true
  | c :: _ => !(Text.isIdentifierStart c || Text.isAsciiDigit c || c == '\\')

/-- Closes a number that takes `taken` characters of `text`. -/
def closeNumber? (text : List Char) (taken : Nat) (token : Token) : Option (Token × Nat) :=
  if numberEnds (text.drop taken) then some (token, taken) else none

/-- A number in a base other than ten, given what follows its mark. -/
def basedNumber? (base : Nat) (text rest : List Char) : Option (Token × Nat) :=
  let digits := digitRun base rest
  let taken := digits.length + 2
  if digits.isEmpty then none
  else if (text.drop taken).head? == some 'n' then closeNumber? text (taken + 1) .bigInt
  else closeNumber? text taken (.number (digitsValue base digits) 0)

/-- The exponent at the start of a text, if there is one, and how many characters it takes. -/
def exponentPart? (text : List Char) : Option (Int × Nat) :=
  match text with
  | [] => some (0, 0)
  | c :: rest =>
    if c == 'e' || c == 'E' then
      let (negative, digitText, signs) : Bool × List Char × Nat :=
        match rest with
        | '-' :: more => (true, more, 1)
        | '+' :: more => (false, more, 1)
        | _ => (false, rest, 0)
      let digits := digitRun 10 digitText
      if digits.isEmpty then none
      else
        let value : Int := digitsValue 10 digits
        some (if negative then -value else value, digits.length + signs + 1)
    else some (0, 0)

/-- A number in base ten. -/
def decimalNumber? (text : List Char) : Option (Token × Nat) := do
  let whole := digitRun 10 text
  let rest := text.drop whole.length
  if rest.head? == some 'n' then closeNumber? text (whole.length + 1) .bigInt
  else
    let (fraction, pointed) : List Char × Nat :=
      match rest with
      | '.' :: more => (digitRun 10 more, 1)
      | _ => ([], 0)
    let beforeExponent := whole.length + pointed + fraction.length
    let (exponent, exponentLength) ← exponentPart? (text.drop beforeExponent)
    let places : Int := (fraction.filter Text.isAsciiDigit).length
    closeNumber? text (beforeExponent + exponentLength)
      (.number (digitsValue 10 (whole ++ fraction)) (exponent - places))

/-- A number at the start of a text. A zero before other digits makes it octal, unless one of
them is too large for that. -/
def number? (text : List Char) : Option (Token × Nat) :=
  match text with
  | '0' :: mark :: rest =>
    if mark == 'x' || mark == 'X' then basedNumber? 16 text rest
    else if mark == 'o' || mark == 'O' then basedNumber? 8 text rest
    else if mark == 'b' || mark == 'B' then basedNumber? 2 text rest
    else
      let digits := text.takeWhile Text.isAsciiDigit
      if digits.length > 1 && digits.all (isDigitOf 8) then
        closeNumber? text digits.length (.number (digitsValue 8 digits) 0)
      else decimalNumber? text
  | _ => decimalNumber? text

/-! ### Signs -/

/-- The signs of the grammar, longer ones first. -/
def signs : List String :=
  [">>>=", "...", "===", "!==", "**=", "<<=", ">>=", ">>>", "&&=", "||=", "??=",
   "=>", "==", "!=", "<=", ">=", "&&", "||", "??", "?.", "++", "--", "+=", "-=", "*=", "/=",
   "%=", "&=", "|=", "^=", "<<", ">>", "**",
   "\x7b", "\x7d", "(", ")", "[", "]", ".", ";", ",", "<", ">", "+", "-", "*", "/", "%", "&",
   "|", "^", "!", "~", "?", ":", "=", "`"]

/-- Whether a sign stands at the start of a text. `?.` before a digit is a `?`. -/
def signStarts (text : List Char) (sign : String) : Bool :=
  match Text.afterStart? sign.toList text with
  | none => false
  | some rest => !(sign == "?." && (rest.head?.map Text.isAsciiDigit).getD false)

/-- The sign at the start of a text. -/
def sign? (text : List Char) : Option (Token × Nat) :=
  (signs.find? (signStarts text)).map (fun sign => (.sign sign, sign.length))

/-! ### Tokens -/

/-- The token at the start of a text of at most `bound` characters that starts with no blank and
no comment, and how many characters it takes. -/
def token? (bound : Nat) (text : List Char) : Option (Token × Nat) :=
  match text with
  | [] => some (.done, 0)
  | '#' :: rest => (word? bound rest).map (fun found => (.privateName, found.2 + 1))
  | '.' :: next :: _ => if Text.isAsciiDigit next then number? text else sign? text
  | c :: rest =>
    if c == '"' || c == '\'' then string? c bound rest
    else if Text.isAsciiDigit c then number? text
    else if Text.isIdentifierStart c || c == '\\' then word? bound text
    else sign? text

/-! ### Texts that the grammar asks for -/

/-- How many characters a regular expression takes up to its closing slash, given what follows
the opening one. Inside brackets a slash closes nothing. -/
def regexLength? : Bool → List Char → Option Nat
  | _, [] => none
  | inClass, '\\' :: c :: rest =>
    if isLineTerminator c then none else (regexLength? inClass rest).map (· + 2)
  | inClass, c :: rest =>
    if isLineTerminator c then none
    else if c == '/' && !inClass then some 1
    else
      (regexLength? (if c == '[' then true else if c == ']' then false else inClass) rest).map
        (· + 1)

/-- How many characters a regular expression takes with its flags, given what follows the
opening slash. -/
def regex? (rest : List Char) : Option Nat := do
  let body ← regexLength? false rest
  let flags := (rest.drop body).takeWhile Text.isIdentifierPart
  return body + flags.length

/-- How many characters of a template run up to a substitution or to its end, with the mark that
ends the run, and whether the template ends there. -/
def templateRun? : List Char → Option (Nat × Bool)
  | [] => none
  | '\x60' :: _ => some (1, true)
  | '$' :: '\x7b' :: _ => some (2, false)
  | '\\' :: _ :: rest => (templateRun? rest).map (fun found => (found.1 + 2, found.2))
  | _ :: rest => (templateRun? rest).map (fun found => (found.1 + 1, found.2))

/-- Whether every escape in a run of a template stands for something. Unlike in a string, a
digit other than a lone zero does not. -/
def escapesHold : List Char → Bool
  | '\\' :: '0' :: c :: rest => !c.isDigit && escapesHold (c :: rest)
  | '\\' :: c :: rest =>
    (c == '0' || !c.isDigit) && (stringEscape? (c :: rest)).isSome && escapesHold rest
  | _ :: rest => escapesHold rest
  | [] => true

/-! ### Keywords -/

/-- The words that cannot be names. -/
def reservedWords : List String :=
  ["break", "case", "catch", "class", "const", "continue", "debugger", "default", "delete", "do",
   "else", "enum", "export", "extends", "false", "finally", "for", "function", "if", "import",
   "in", "instanceof", "new", "null", "return", "super", "switch", "this", "throw", "true", "try",
   "typeof", "var", "void", "while", "with"]

end DocEntities.Script
