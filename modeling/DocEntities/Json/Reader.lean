/-
This file reads JSON by type. A reader is told which type it expects and takes it from the
front of the text; what it cannot take is a fault, and the first fault in the text decides
its sort: the text ends too early, it is no JSON, or it is JSON of another type. A value of
another type is still read as far as is needed to know that it is one.

Values that nobody asked for are skipped: they are checked to be JSON, however deep they
are. Values that are kept for later are read whole, up to a depth.
-/

import DocEntities.Text.Hex
import DocEntities.Text.WordChar

namespace DocEntities.Json

/-- Why a text could not be read. -/
inductive Fault where
  /-- The text is no JSON. -/
  | syntaxError
  /-- The text is JSON that does not describe the expected type. -/
  | data
  /-- The text ends too early. -/
  | endOfText
  deriving DecidableEq, Repr, Inhabited

/-- Takes a value from the front of a text. -/
abbrev Reader (α : Type) : Type :=
  StateT (List Char) (Except Fault) α

namespace Reader

/-- Fails. -/
def fail {α : Type} (fault : Fault) : Reader α :=
  fun _ => .error fault

/-! ### Characters -/

/-- The blanks of JSON. -/
def isBlank (c : Char) : Bool :=
  c == ' ' || c == '\n' || c == '\t' || c == '\r'

/-- The next character that is not blank, which stays in the text. -/
def peek : Reader (Option Char) :=
  fun text =>
    let rest := text.dropWhile isBlank
    .ok (rest.head?, rest)

/-- Drops one character. -/
def drop : Reader Unit :=
  fun text => .ok ((), text.drop 1)

/-- Takes a word letter by letter. -/
def literal : List Char → Reader Unit
  | [] => pure ()
  | expected :: more => fun text =>
    match text with
    | [] => .error .endOfText
    | c :: rest => if c == expected then literal more rest else .error .syntaxError

/-! ### Texts -/

/-- The value of four hexadecimal digits. -/
def hexUnit? (a b c d : Char) : Option Nat := do
  let high := (← Text.hexValue? a) * 16 + (← Text.hexValue? b)
  return high * 256 + (← Text.hexValue? c) * 16 + (← Text.hexValue? d)

/-- The fault of an escape that lacks its four digits: too short if fewer than four bytes are
left, otherwise wrong. -/
def hexFault (rest : List Char) : Fault :=
  if (rest.map Char.utf8Size).foldr (· + ·) 0 < 4 then .endOfText else .syntaxError

/-- The character of a one-letter escape. -/
def escaped? (c : Char) : Option Char :=
  if c == '"' || c == '\\' || c == '/' then some c
  else if c == 'b' then some (Char.ofNat 8)
  else if c == 'f' then some (Char.ofNat 12)
  else if c == 'n' then some '\n'
  else if c == 'r' then some '\r'
  else if c == 't' then some '\t'
  else none

/-- Puts a character before what was read. -/
def consChar (c : Char) :
    Except Fault (List Char × List Char) → Except Fault (List Char × List Char)
  | .ok (chars, rest) => .ok (c :: chars, rest)
  | .error fault => .error fault

/-- The inside of a text up to the closing quote, and what follows the quote. -/
def textBody : List Char → Except Fault (List Char × List Char)
  | [] => .error .endOfText
  | '"' :: rest => .ok ([], rest)
  | '\\' :: rest =>
    match rest with
    | [] => .error .endOfText
    | 'u' :: digits =>
      match digits with
      | a :: b :: c :: d :: more =>
        match hexUnit? a b c d with
        | none => .error .syntaxError
        | some unit =>
          if 0xDC00 ≤ unit && unit ≤ 0xDFFF then .error .syntaxError
          else if 0xD800 ≤ unit && unit ≤ 0xDBFF then
            match more with
            | [] => .error .endOfText
            | ['\\'] => .error .endOfText
            | '\\' :: 'u' :: low =>
              match low with
              | e :: f :: g :: h :: tail =>
                match hexUnit? e f g h with
                | none => .error .syntaxError
                | some second =>
                  if 0xDC00 ≤ second && second ≤ 0xDFFF then
                    consChar
                      (Char.ofNat (0x10000 + (unit - 0xD800) * 0x400 + (second - 0xDC00)))
                      (textBody tail)
                  else .error .syntaxError
              | _ => .error (hexFault low)
            | _ => .error .syntaxError
          else consChar (Char.ofNat unit) (textBody more)
      | _ => .error (hexFault digits)
    | c :: more =>
      match escaped? c with
      | none => .error .syntaxError
      | some found => consChar found (textBody more)
  | c :: rest => if c.toNat < 0x20 then .error .syntaxError else consChar c (textBody rest)

/-- A text whose opening quote has been taken. -/
def textRest : Reader String :=
  fun text =>
    match textBody text with
    | .ok (body, rest) => .ok (String.ofList body, rest)
    | .error fault => .error fault

/-! ### Numbers -/

/-- A number, as far as types care. -/
inductive Number where
  /-- A natural number below 2^64. -/
  | natural (value : Nat)
  | other
  deriving DecidableEq, Repr

/-- The value of decimal digits, appended to a value. -/
def digitsValue (start : Nat) (digits : List Char) : Nat :=
  digits.foldl (fun value c => value * 10 + (c.toNat - '0'.toNat)) start

/-- Takes digits. -/
def digits : Reader (List Char) :=
  fun text => .ok (text.takeWhile Text.isAsciiDigit, text.dropWhile Text.isAsciiDigit)

/-- The digits before the point: a zero alone, or digits without a zero in front. -/
def integerDigits : Reader (List Char) :=
  fun text =>
    match text with
    | [] => .error .endOfText
    | '0' :: rest =>
      if (rest.head?.map Text.isAsciiDigit).getD false then .error .syntaxError
      else .ok (['0'], rest)
    | c :: _ =>
      if Text.isAsciiDigit c then digits text else .error .syntaxError

/-- The digits behind a point, at least one. -/
def fractionDigits : Reader (List Char) := do
  let found ← digits
  if found.isEmpty then
    let rest ← get
    fail (if rest.isEmpty then .endOfText else .syntaxError)
  else return found

/-- The digits of an exponent and whether it is negative. -/
def exponentDigits : Reader (List Char × Bool) := do
  let negative ← (fun text =>
    match text with
    | '+' :: rest => .ok (false, rest)
    | '-' :: rest => .ok (true, rest)
    | _ => .ok (false, text) : Reader Bool)
  return (← fractionDigits, negative)

/-- The first value beyond the numbers that can be held, which are rounded to double precision:
half a step above the largest. -/
def overflowBound : Nat := Nat.pow 2 1024 - Nat.pow 2 970

/-- Whether `digits · 10 ^ exponent` is too large to be held. The number of places in front of
the point decides, except for the numbers that come close to the bound. -/
def overflows (digits : Nat) (exponent : Int) : Bool :=
  let places : Int := (Nat.toDigits 10 digits).length + exponent
  if digits == 0 || places < 308 then false
  else if places > 310 then true
  else digits * Nat.pow 10 exponent.toNat ≥ overflowBound * Nat.pow 10 (-exponent).toNat

/-- A number, its sign already taken. -/
def numberRest (negative : Bool) : Reader Number := do
  let whole ← integerDigits
  let fraction ← (fun text =>
    match text with
    | '.' :: rest => (do return some (← fractionDigits) : Reader (Option (List Char))) rest
    | _ => .ok (none, text) : Reader (Option (List Char)))
  let exponent ← (fun text =>
    match text with
    | 'e' :: rest | 'E' :: rest =>
      (do return some (← exponentDigits) : Reader (Option (List Char × Bool))) rest
    | _ => .ok (none, text) : Reader (Option (List Char × Bool)))
  let significand := digitsValue 0 (whole ++ fraction.getD [])
  let scale : Int :=
    match exponent with
    | none => 0
    | some (digits, minus) =>
      if minus then -(digitsValue 0 digits : Int) else (digitsValue 0 digits : Int)
  if overflows significand (scale - (fraction.getD []).length) then fail .syntaxError
  else if fraction.isNone && exponent.isNone && !negative && significand < Nat.pow 2 64 then
    return .natural significand
  else return .other

/-! ### Values of another type -/

/-- Reads a value of a type that was not expected, as far as is needed to know so, and fails. -/
def wrongType {α : Type} : Reader α := do
  match ← peek with
  | none => fail .endOfText
  | some c =>
    if c == 'n' then drop; literal "ull".toList; fail .data
    else if c == 't' then drop; literal "rue".toList; fail .data
    else if c == 'f' then drop; literal "alse".toList; fail .data
    else if c == '-' then drop; let _ ← numberRest true; fail .data
    else if Text.isAsciiDigit c then let _ ← numberRest false; fail .data
    else if c == '"' then drop; let _ ← textRest; fail .data
    else if c == '[' || c == '\x7b' then fail .data
    else fail .syntaxError

/-! ### Simple types -/

/-- A text. -/
def text : Reader String := do
  match ← peek with
  | some '"' => drop; textRest
  | _ => wrongType

/-- `true` or `false`. -/
def flag : Reader Bool := do
  match ← peek with
  | some 't' => drop; literal "rue".toList; return true
  | some 'f' => drop; literal "alse".toList; return false
  | _ => wrongType

/-- A natural number below 2^64. -/
def natural : Reader Nat := do
  match ← peek with
  | some c =>
    if Text.isAsciiDigit c then
      match ← numberRest false with
      | .natural value => return value
      | .other => fail .data
    else wrongType
  | none => wrongType

/-- `null` for nothing, or a value. -/
def nullable {α : Type} (value : Reader α) : Reader (Option α) := do
  match ← peek with
  | some 'n' => drop; literal "ull".toList; return none
  | _ => return some (← value)

/-- `null`. -/
def nothing : Reader Unit := do
  match ← peek with
  | some 'n' => drop; literal "ull".toList
  | _ => wrongType

/-! ### Lists and objects -/

/-- Whether another item follows in a list; `first` before the first one. -/
def moreItems (first : Bool) : Reader Bool := do
  match ← peek with
  | none => fail .endOfText
  | some ']' => return false
  | some c =>
    if first then return true
    else if c == ',' then
      drop
      match ← peek with
      | none => fail .endOfText
      | some ']' => fail .syntaxError
      | some _ => return true
    else fail .syntaxError

/-- The items of a list up to its end. Each item takes a character at least, so the length of
the text bounds their number. -/
def items {α : Type} (item : Reader α) : Nat → Bool → Reader (List α)
  | 0, _ => fail .endOfText
  | bound + 1, first => do
    if ← moreItems first then
      let head ← item
      return head :: (← items item bound false)
    else
      drop
      return []

/-- A list. -/
def list {α : Type} (item : Reader α) : Reader (List α) := do
  match ← peek with
  | some '[' =>
    drop
    items item ((← get).length + 1) true
  | _ => wrongType

/-- The key of the next member of an object, if there is one; `first` before the first one. -/
def nextKey (first : Bool) : Reader (Option String) := do
  match ← peek with
  | none => fail .endOfText
  | some '\x7d' => return none
  | some c =>
    if !first && c != ',' then fail .syntaxError
    else
      if !first then drop
      match ← peek with
      | none => fail .endOfText
      | some '"' => drop; return some (← textRest)
      | some _ => fail .syntaxError

/-- The colon behind a key. -/
def colon : Reader Unit := do
  match ← peek with
  | none => fail .endOfText
  | some ':' => drop
  | some _ => fail .syntaxError

/-- The members of an object up to its end. `step` takes the colon and the value of a key and
adds them to what was read. -/
def members {σ : Type} (step : String → σ → Reader σ) : Nat → Bool → σ → Reader σ
  | 0, _, _ => fail .endOfText
  | bound + 1, first, state => do
    match ← nextKey first with
    | none => drop; return state
    | some key => members step bound false (← step key state)

/-- An object whose opening brace is next. -/
def object {σ : Type} (step : String → σ → Reader σ) (start : σ) : Reader σ := do
  drop
  members step ((← get).length + 1) true start

/-- The end of a list that has no more items to give. -/
def listEnd : Reader Unit := do
  match ← peek with
  | none => fail .endOfText
  | some ']' => drop
  | some _ => fail .syntaxError

/-- One of several words: as a text, or as an object with that one key and nothing under it. -/
def choice {α : Type} (ofWord? : String → Option α) : Reader α := do
  let chosen (word : String) : Reader α :=
    match ofWord? word with
    | some found => pure found
    | none => fail .data
  match ← peek with
  | none => fail .endOfText
  | some '"' => drop; chosen (← textRest)
  | some '\x7b' =>
    drop
    let found ← chosen (← text)
    colon
    nothing
    match ← peek with
    | none => fail .endOfText
    | some '\x7d' => drop; return found
    | some _ => fail .syntaxError
  | some _ => fail .syntaxError

/-! ### Values that are skipped -/

/-- Skips the inside of a text and its closing quote. -/
def skipTextBody : List Char → Except Fault (List Char)
  | [] => .error .endOfText
  | '"' :: rest => .ok rest
  | '\\' :: rest =>
    match rest with
    | [] => .error .endOfText
    | 'u' :: digits =>
      match digits with
      | a :: b :: c :: d :: more =>
        match hexUnit? a b c d with
        | none => .error .syntaxError
        | some _ => skipTextBody more
      | _ => .error (hexFault digits)
    | c :: more =>
      match escaped? c with
      | none => .error .syntaxError
      | some _ => skipTextBody more
  | c :: rest => if c.toNat < 0x20 then .error .syntaxError else skipTextBody rest

/-- Skips a text whose opening quote has been taken. -/
def skipText : Reader Unit :=
  fun text =>
    match skipTextBody text with
    | .ok rest => .ok ((), rest)
    | .error fault => .error fault

/-- Skips a number, its sign already taken. Only its form is checked. -/
def skipNumber : Reader Unit := do
  let required : Reader Unit := do
    if (← digits).isEmpty then fail .syntaxError
  let text ← get
  match text with
  | '0' :: rest =>
    if (rest.head?.map Text.isAsciiDigit).getD false then fail .syntaxError else set rest
  | _ => required
  match ← get with
  | '.' :: rest => set rest; required
  | _ => pure ()
  match ← get with
  | 'e' :: rest | 'E' :: rest =>
    match rest with
    | '+' :: more | '-' :: more => set more
    | _ => set rest
    required
  | _ => pure ()

mutual

/-- Skips a value of any type. -/
def skipValue : Nat → Reader Unit
  | 0 => fail .endOfText
  | bound + 1 => do
    match ← peek with
    | none => fail .endOfText
    | some c =>
      if c == 'n' then drop; literal "ull".toList
      else if c == 't' then drop; literal "rue".toList
      else if c == 'f' then drop; literal "alse".toList
      else if c == '-' then drop; skipNumber
      else if Text.isAsciiDigit c then skipNumber
      else if c == '"' then drop; skipText
      else if c == '[' then drop; skipItems bound true
      else if c == '\x7b' then drop; skipMembers bound true
      else fail .syntaxError

/-- Skips the items of a list and its end. -/
def skipItems : Nat → Bool → Reader Unit
  | 0, _ => fail .endOfText
  | bound + 1, first => do
    if ← moreItems first then
      skipValue bound
      skipItems bound false
    else drop

/-- Skips the members of an object and its end. -/
def skipMembers : Nat → Bool → Reader Unit
  | 0, _ => fail .endOfText
  | bound + 1, first => do
    match ← peek with
    | none => fail .endOfText
    | some '\x7d' => drop
    | some c =>
      if !first && c != ',' then fail .syntaxError
      else
        if !first then drop
        match ← peek with
        | none => fail .endOfText
        | some '"' =>
          drop
          skipText
          colon
          skipValue bound
          skipMembers bound false
        | some _ => fail .syntaxError

end

/-- Skips a value. Every step takes a character at least or follows one that did, so twice the
length of the text bounds the steps. -/
def skip : Reader Unit := do
  skipValue (2 * (← get).length + 2)

/-! ### Values that are kept -/

/-- A value that was kept for later. -/
inductive Kept where
  | text (value : String)
  | flag (value : Bool)
  | other
  deriving DecidableEq, Repr, Inhabited

/-- Reads a value of any type, given how the values inside a list or an object are read, if they
may be read at all. -/
def keepWith (inner : Option (Reader Kept)) : Reader Kept := do
  match ← peek with
  | none => fail .endOfText
  | some c =>
    if c == 'n' then drop; literal "ull".toList; return .other
    else if c == 't' then drop; literal "rue".toList; return .flag true
    else if c == 'f' then drop; literal "alse".toList; return .flag false
    else if c == '-' then drop; let _ ← numberRest true; return .other
    else if Text.isAsciiDigit c then let _ ← numberRest false; return .other
    else if c == '"' then drop; return .text (← textRest)
    else if c == '[' || c == '\x7b' then
      match inner with
      | none => fail .syntaxError
      | some value =>
        if c == '[' then
          let _ ← list value
        else
          object (fun _ (_ : Unit) => do colon; let _ ← value) ()
        return .other
    else fail .syntaxError

/-- Reads a value of any type, lists and objects at most `depth` deep. -/
def keep : Nat → Reader Kept
  | 0 => keepWith none
  | depth + 1 => keepWith (some (keep depth))

/-! ### Whole texts -/

/-- Reads a whole text: a value with nothing but blanks around it. -/
def run {α : Type} (value : Reader α) (whole : String) : Except Fault α :=
  match value whole.toList with
  | .error fault => .error fault
  | .ok (found, rest) =>
    if (rest.dropWhile isBlank).isEmpty then .ok found else .error .syntaxError

end Reader

end DocEntities.Json
