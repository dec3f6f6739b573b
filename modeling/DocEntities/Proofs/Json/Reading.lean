/-
This file shows that readers take back what was written. A reader takes a text as a value if it
takes it behind any blanks and in front of anything that can follow a value, and leaves what
follows. That is shown for the readers of texts, flags, numbers, lists and objects, for every
layout that puts nothing but blanks between the parts of a value.

For an object it is enough to know what each member does to what was read so far. A member that
is a field may come once, so the keys that were seen are followed along with the value.
-/

import DocEntities.Json.Entities
import Mathlib.Data.List.Forall2

namespace DocEntities.Json

/-! ### Blanks and delimiters -/

/-- A text that is blank. -/
def Blank (text : List Char) : Prop :=
  ∀ c ∈ text, Reader.isBlank c = true

/-- What can stand behind a value: a blank, a comma, or the end of a list or an object. -/
def delimiters : List Char :=
  [' ', '\n', '\t', '\r', ',', ']', '\x7d']

/-- A text that a value can stand in front of. -/
def Delimited (rest : List Char) : Prop :=
  ∀ c ∈ rest.head?, c ∈ delimiters

/-- A layout that puts nothing but blanks between the parts of a value. -/
structure Layout.Spaced (layout : Layout) : Prop where
  lineBreak (depth : Nat) : Blank (layout.lineBreak depth)
  colon : ∃ before after, Blank before ∧ Blank after ∧ layout.colon = before ++ ':' :: after

theorem Layout.spaced_compact : Layout.compact.Spaced where
  lineBreak _ := List.forall_mem_nil _
  colon := ⟨[], [], List.forall_mem_nil _, List.forall_mem_nil _, rfl⟩

theorem Layout.spaced_pretty : Layout.pretty.Spaced where
  lineBreak depth := by
    intro c member
    rcases List.mem_cons.mp member with rfl | indent
    · rfl
    · rw [List.eq_of_mem_replicate indent]
      rfl
  colon := ⟨[], [' '], List.forall_mem_nil _, by simp [Blank, Reader.isBlank], rfl⟩

theorem Blank.nil : Blank [] :=
  List.forall_mem_nil _

theorem mem_delimiters_of_isBlank {c : Char} (blank : Reader.isBlank c = true) :
    c ∈ delimiters := by
  simp only [Reader.isBlank, Bool.or_eq_true, beq_iff_eq] at blank
  simp only [delimiters, List.mem_cons]
  tauto

theorem isAsciiDigit_delimiter : ∀ c ∈ delimiters, Text.isAsciiDigit c = false := by
  simp [delimiters, Text.isAsciiDigit]

theorem isBlank_of_isAsciiDigit {c : Char} (digit : Text.isAsciiDigit c = true) :
    Reader.isBlank c = false := by
  refine Bool.eq_false_iff.mpr fun blank => ?_
  rw [isAsciiDigit_delimiter c (mem_delimiters_of_isBlank blank)] at digit
  cases digit

/-- Blanks in front of a delimiter delimit as well. -/
theorem Blank.delimited {blanks rest : List Char} (blank : Blank blanks)
    (delimited : Delimited rest) : Delimited (blanks ++ rest) := by
  cases blanks with
  | nil => exact delimited
  | cons first more =>
    intro c member
    rw [Option.mem_def, List.cons_append, List.head?_cons, Option.some.injEq] at member
    exact mem_delimiters_of_isBlank (member ▸ blank first List.mem_cons_self)

/-! ### Readers in sequence -/

namespace Reader

variable {α β : Type}

theorem bind_of_ok {reader : Reader α} {next : α → Reader β} {text rest : List Char} {value : α}
    (read : reader text = .ok (value, rest)) : (reader >>= next) text = next value rest := by
  show (reader text >>= fun result => next result.1 result.2) = _
  rw [read]
  rfl

/-- What a sequence of two readers takes, the second takes behind the first. -/
theorem exists_of_bind {reader : Reader α} {next : α → Reader β} {text last : List Char}
    {result : β} (read : (reader >>= next) text = .ok (result, last)) :
    ∃ value rest, reader text = .ok (value, rest) ∧ next value rest = .ok (result, last) := by
  change (reader text >>= fun result => next result.1 result.2) = _ at read
  cases first : reader text with
  | error fault =>
    rw [first] at read
    cases read
  | ok found =>
    rw [first] at read
    exact ⟨found.1, found.2, rfl, read⟩

theorem peek_of_blank {blanks : List Char} (blank : Blank blanks) {c : Char}
    (notBlank : isBlank c = false) (rest : List Char) :
    peek (blanks ++ c :: rest) = .ok (some c, c :: rest) := by
  have dropped : (blanks ++ c :: rest).dropWhile isBlank = c :: rest := by
    rw [List.dropWhile_append_of_pos blank, List.dropWhile_cons_of_neg (by simp [notBlank])]
  simp only [peek, dropped, List.head?_cons]

theorem peek_cons {c : Char} (notBlank : isBlank c = false) (rest : List Char) :
    peek (c :: rest) = .ok (some c, c :: rest) :=
  peek_of_blank .nil notBlank rest

theorem drop_cons (c : Char) (rest : List Char) : drop (c :: rest) = .ok ((), rest) :=
  rfl

/-- A reader takes a text as a value: whatever blanks are in front of it, and whatever follows
it, which stays. -/
def Reads (reader : Reader α) (text : List Char) (value : α) : Prop :=
  ∀ blanks rest, Blank blanks → Delimited rest →
    reader (blanks ++ (text ++ rest)) = .ok (value, rest)

/-! ### Texts -/

theorem hexValue?_hexDigit : ∀ value < 16, Text.hexValue? (hexDigit value) = some value := by
  decide

/-- The four digits of an escape give the character back. -/
theorem hexUnit?_hexDigit {value : Nat} (small : value < 0x20) :
    hexUnit? '0' '0' (hexDigit (value / 16)) (hexDigit (value % 16)) = some value := by
  have zero : Text.hexValue? '0' = some 0 := rfl
  have high := hexValue?_hexDigit (value / 16) (by omega)
  have low := hexValue?_hexDigit (value % 16) (by omega)
  simp only [hexUnit?, zero, high, low, Option.bind_eq_bind, Option.bind_some, Option.pure_def,
    Option.some.injEq]
  omega

theorem textBody_letter {letter found : Char} (single : letter ≠ 'u')
    (escape : escaped? letter = some found) (rest : List Char) :
    textBody ('\\' :: letter :: rest) = consChar found (textBody rest) := by
  rw [textBody, escape]
  exact single

theorem textBody_unit {value : Nat} (small : value < 0x20) (rest : List Char) :
    textBody ('\\' :: 'u' :: '0' :: '0' :: hexDigit (value / 16) :: hexDigit (value % 16) :: rest) =
      consChar (Char.ofNat value) (textBody rest) := by
  have low : ¬(decide (0xDC00 ≤ value) && decide (value ≤ 0xDFFF)) = true := by simp; omega
  have high : ¬(decide (0xD800 ≤ value) && decide (value ≤ 0xDBFF)) = true := by simp; omega
  simp only [textBody, hexUnit?_hexDigit small, if_neg low, if_neg high]

theorem textBody_plain {c : Char} (noQuote : c ≠ '"') (noEscape : c ≠ '\\')
    (visible : ¬c.toNat < 0x20) (rest : List Char) :
    textBody (c :: rest) = consChar c (textBody rest) := by
  rw [textBody, if_neg visible]
  · exact noQuote
  · exact noEscape

/-- An escaped character is read as the character. -/
theorem textBody_escapeChar (c : Char) (rest : List Char) :
    textBody (escapeChar c ++ rest) = consChar c (textBody rest) := by
  have letter {value : Nat} {written : Char} (same : (c.toNat == value) = true)
      (single : written ≠ 'u') (escape : escaped? written = some (Char.ofNat value)) :
      textBody (['\\', written] ++ rest) = consChar c (textBody rest) := by
    rw [← Char.ofNat_toNat c, beq_iff_eq.mp same]
    exact textBody_letter single escape rest
  unfold escapeChar
  split
  · rename_i isQuote
    rw [beq_iff_eq.mp isQuote]
    exact textBody_letter (by decide) rfl rest
  split
  · rename_i isEscape
    rw [beq_iff_eq.mp isEscape]
    exact textBody_letter (by decide) rfl rest
  split
  · rename_i control
    -- Five control characters have a letter, the others are written by their number.
    split
    · exact letter ‹_› (by decide) rfl
    split
    · exact letter ‹_› (by decide) rfl
    split
    · exact letter ‹_› (by decide) rfl
    split
    · exact letter ‹_› (by decide) rfl
    split
    · exact letter ‹_› (by decide) rfl
    · exact (textBody_unit control rest).trans (by rw [Char.ofNat_toNat])
  · rename_i noQuote noEscape visible
    exact textBody_plain (by simpa using noQuote) (by simpa using noEscape) visible rest

theorem textBody_flatMap_escapeChar (chars rest : List Char) :
    textBody (chars.flatMap escapeChar ++ '"' :: rest) = .ok (chars, rest) := by
  induction chars with
  | nil => rfl
  | cons c more inductionHypothesis =>
    rw [List.flatMap_cons, List.append_assoc, textBody_escapeChar, inductionHypothesis]
    rfl

theorem quote_append (value : String) (rest : List Char) :
    quote value ++ rest = '"' :: (value.toList.flatMap escapeChar ++ '"' :: rest) := by
  simp [quote]

theorem peek_quote {blanks : List Char} (blank : Blank blanks) (value : String)
    (rest : List Char) :
    peek (blanks ++ (quote value ++ rest)) = .ok (some '"', quote value ++ rest) :=
  peek_of_blank blank rfl _

/-- Behind its opening quote a text is taken up to the closing one. -/
theorem textRest_quote_bind (value : String) (rest : List Char) (next : String → Reader α) :
    (drop >>= fun _ => textRest >>= next) (quote value ++ rest) = next value rest := by
  have read : textRest (value.toList.flatMap escapeChar ++ '"' :: rest) = .ok (value, rest) := by
    rw [textRest, textBody_flatMap_escapeChar]
    simp only [String.ofList_toList]
  rw [quote_append, bind_of_ok (drop_cons _ _), bind_of_ok read]

theorem reads_text (value : String) : Reads text (quote value) value := by
  intro blanks rest blank _
  unfold text
  rw [bind_of_ok (peek_quote blank value rest)]
  show (drop >>= fun _ => textRest) _ = _
  rw [← bind_pure textRest]
  exact textRest_quote_bind value rest pure

/-- A word that has to be chosen among several. -/
theorem reads_choice {ofWord? : String → Option α} {word : String} {value : α}
    (known : ofWord? word = some value) : Reads (choice ofWord?) (quote word) value := by
  intro blanks rest blank _
  unfold choice
  rw [bind_of_ok (peek_quote blank word rest)]
  refine (textRest_quote_bind word rest _).trans ?_
  simp only [known]
  rfl

/-! ### Flags -/

theorem literal_append (word rest : List Char) : literal word (word ++ rest) = .ok ((), rest) := by
  induction word with
  | nil => rfl
  | cons c more inductionHypothesis => simpa [literal] using inductionHypothesis

/-- A word stands for a value. -/
theorem literal_pure (c : Char) (word rest : List Char) (value : α) :
    (drop >>= fun _ => literal word >>= fun _ => pure value) (c :: (word ++ rest)) =
      .ok (value, rest) := by
  rw [bind_of_ok (drop_cons _ _), bind_of_ok (literal_append _ _)]
  rfl

theorem reads_flag (layout : Layout) (depth : Nat) (value : Bool) :
    Reads flag (write layout depth (.flag value)) value := by
  intro blanks rest blank _
  unfold flag
  cases value with
  | true =>
    show (peek >>= _) (blanks ++ 't' :: ("rue".toList ++ rest)) = _
    rw [bind_of_ok (peek_of_blank blank rfl _)]
    exact literal_pure 't' "rue".toList rest true
  | false =>
    show (peek >>= _) (blanks ++ 'f' :: ("alse".toList ++ rest)) = _
    rw [bind_of_ok (peek_of_blank blank rfl _)]
    exact literal_pure 'f' "alse".toList rest false

/-! ### Numbers -/

theorem isAsciiDigit_of_mem_toDigits {value : Nat} {c : Char} (member : c ∈ Nat.toDigits 10 value) :
    Text.isAsciiDigit c = true :=
  Nat.isDigit_of_mem_toDigits (by decide) (by decide) member

theorem exists_toDigits_eq_cons (value : Nat) :
    ∃ c more, Nat.toDigits 10 value = c :: more ∧ Text.isAsciiDigit c = true := by
  obtain ⟨c, more, found⟩ := List.exists_cons_of_ne_nil (@Nat.toDigits_ne_nil value 10)
  exact ⟨c, more, found, isAsciiDigit_of_mem_toDigits (found ▸ List.mem_cons_self)⟩

theorem digitsValue_toDigits (value : Nat) : digitsValue 0 (Nat.toDigits 10 value) = value := by
  have folded := @Nat.ofDigitChars_ten_toDigits value
  simp only [Nat.ofDigitChars_eq_foldl, Nat.mul_comm 10] at folded
  exact folded

/-- The digits of a positive number do not start with a zero. -/
theorem head?_toDigits_ne_zero {value : Nat} (positive : 0 < value) :
    (Nat.toDigits 10 value).head? ≠ some '0' := by
  induction value using Nat.strongRecOn with
  | ind value inductionHypothesis =>
    by_cases small : value < 10
    · have digit : ∀ value < 10, 0 < value → value.digitChar ≠ '0' := by decide
      rw [Nat.toDigits_of_lt_base small, List.head?_cons, ne_eq, Option.some.injEq]
      exact digit value small positive
    · have front := inductionHypothesis (value / 10) (by omega) (by omega)
      rw [Nat.toDigits_of_base_le (by decide) (by omega),
        List.head?_append_of_ne_nil _ Nat.toDigits_ne_nil]
      exact front

theorem digits_append {found rest : List Char} (each : ∀ c ∈ found, Text.isAsciiDigit c = true)
    (delimited : Delimited rest) : digits (found ++ rest) = .ok (found, rest) := by
  have stop : rest.takeWhile Text.isAsciiDigit = [] ∧ rest.dropWhile Text.isAsciiDigit = rest := by
    cases rest with
    | nil => exact ⟨rfl, rfl⟩
    | cons c more => simp [isAsciiDigit_delimiter c (delimited c rfl)]
  rw [digits, List.takeWhile_append_of_pos each, List.dropWhile_append_of_pos each, stop.1, stop.2,
    List.append_nil]

theorem integerDigits_toDigits (value : Nat) {rest : List Char} (delimited : Delimited rest) :
    integerDigits (Nat.toDigits 10 value ++ rest) = .ok (Nat.toDigits 10 value, rest) := by
  rcases Nat.eq_zero_or_pos value with rfl | positive
  · show (if (rest.head?.map Text.isAsciiDigit).getD false = true then _ else _) = _
    cases rest with
    | nil => rfl
    | cons c more => simp [isAsciiDigit_delimiter c (delimited c rfl)]
  · have read := digits_append (fun c => @isAsciiDigit_of_mem_toDigits value c) delimited
    have first := head?_toDigits_ne_zero positive
    obtain ⟨c, more, found, digit⟩ := exists_toDigits_eq_cons value
    rw [found] at read first ⊢
    rw [List.cons_append, integerDigits, if_pos digit]
    · exact read
    · rintro rfl
      exact first rfl

/-- A number of at most twenty digits can be held. -/
theorem overflows_eq_false {value : Nat} (bounded : value < Nat.pow 2 64) :
    overflows value 0 = false := by
  have places : (Nat.toDigits 10 value).length ≤ 20 :=
    (Nat.length_toDigits_le_iff (by decide) (by decide)).mpr
      (Nat.lt_trans bounded (by decide))
  have few : ((Nat.toDigits 10 value).length : Int) + 0 < 308 := by omega
  simp only [overflows, decide_eq_true few, Bool.or_true, if_true]

theorem numberRest_toDigits {value : Nat} (bounded : value < Nat.pow 2 64) {rest : List Char}
    (delimited : Delimited rest) :
    numberRest false (Nat.toDigits 10 value ++ rest) = .ok (.natural value, rest) := by
  unfold numberRest
  rw [bind_of_ok (integerDigits_toDigits value delimited)]
  refine (@bind_of_ok _ _ _ _ _ rest none ?_).trans ?_
  · split
    · exact absurd (delimited '.' rfl) (by decide)
    · rfl
  refine (@bind_of_ok _ _ _ _ _ rest none ?_).trans ?_
  · split
    · exact absurd (delimited 'e' rfl) (by decide)
    · exact absurd (delimited 'E' rfl) (by decide)
    · rfl
  have held : overflows value (0 - ((0 : Nat) : Int)) = false := overflows_eq_false bounded
  simp only [Option.getD_none, List.append_nil, digitsValue_toDigits, List.length_nil, held,
    Option.isNone_none, Bool.not_false, Bool.and_self, decide_eq_true bounded, if_true]
  rfl

theorem reads_natural (layout : Layout) (depth : Nat) {value : Nat}
    (bounded : value < Nat.pow 2 64) :
    Reads natural (write layout depth (.number value)) value := by
  intro blanks rest blank delimited
  obtain ⟨c, more, found, digit⟩ := exists_toDigits_eq_cons value
  have read := numberRest_toDigits bounded delimited
  rw [found] at read
  unfold natural
  rw [write, found, List.cons_append,
    bind_of_ok (peek_of_blank blank (isBlank_of_isAsciiDigit digit) _)]
  simp only [if_pos digit]
  exact bind_of_ok read

/-! ### Values that may be missing, and values that are kept -/

/-- The characters that a written value can start with. -/
def opens (c : Char) : Bool :=
  c == 't' || c == 'f' || c == '"' || c == '[' || c == '\x7b' || Text.isAsciiDigit c

theorem exists_opens_write (layout : Layout) (depth : Nat) (value : Json) :
    ∃ c rest, write layout depth value = c :: rest ∧ opens c = true := by
  cases value with
  | flag value => cases value <;> exact ⟨_, _, rfl, rfl⟩
  | number value =>
    obtain ⟨c, more, found, digit⟩ := exists_toDigits_eq_cons value
    exact ⟨c, more, found, by simp [opens, digit]⟩
  | text value => exact ⟨_, _, rfl, rfl⟩
  | list items => cases items <;> exact ⟨_, _, rfl, rfl⟩
  | object members => rcases members with _ | ⟨⟨key, value⟩, more⟩ <;> exact ⟨_, _, rfl, rfl⟩

theorem isBlank_of_opens {c : Char} (opening : opens c = true) : isBlank c = false := by
  simp only [opens, Bool.or_eq_true, beq_iff_eq] at opening
  rcases opening with (((((rfl | rfl) | rfl) | rfl) | rfl) | digit)
  · rfl
  · rfl
  · rfl
  · rfl
  · rfl
  · exact isBlank_of_isAsciiDigit digit

theorem reads_nullable {value : Reader α} {layout : Layout} {depth : Nat} {json : Json} {found : α}
    (reads : Reads value (write layout depth json) found) :
    Reads (nullable value) (write layout depth json) (some found) := by
  intro blanks rest blank delimited
  obtain ⟨c, more, written, opening⟩ := exists_opens_write layout depth json
  have read := reads [] rest .nil delimited
  rw [written] at read ⊢
  unfold nullable
  rw [List.cons_append, bind_of_ok (peek_of_blank blank (isBlank_of_opens opening) _)]
  -- Only `null` starts with an `n`.
  have present : c ≠ 'n' := by
    rintro rfl
    cases opening
  refine (congrFun (show _ = (value >>= fun taken => pure (some taken)) from ?_) _).trans
    (bind_of_ok read)
  split
  · rename_i isNull
    exact absurd (Option.some.inj isNull) present
  · rfl

/-- A remark as a value that is kept. -/
def Kept.ofRemark : Remark → Kept
  | .text value => .text value
  | .flag value => .flag value

theorem Kept.toRemark?_ofRemark (remark : Remark) : (ofRemark remark).toRemark? = some remark := by
  cases remark <;> rfl

theorem reads_keepWith (inner : Option (Reader Kept)) (layout : Layout) (depth : Nat)
    (remark : Remark) :
    Reads (keepWith inner) (write layout depth remark.toJson) (.ofRemark remark) := by
  intro blanks rest blank _
  unfold keepWith
  cases remark with
  | text value =>
    show (peek >>= _) (blanks ++ (quote value ++ rest)) = _
    rw [bind_of_ok (peek_quote blank value rest)]
    exact textRest_quote_bind value rest _
  | flag value =>
    cases value with
    | true =>
      show (peek >>= _) (blanks ++ 't' :: ("rue".toList ++ rest)) = _
      rw [bind_of_ok (peek_of_blank blank rfl _)]
      exact literal_pure 't' "rue".toList rest (Kept.flag true)
    | false =>
      show (peek >>= _) (blanks ++ 'f' :: ("alse".toList ++ rest)) = _
      rw [bind_of_ok (peek_of_blank blank rfl _)]
      exact literal_pure 'f' "alse".toList rest (Kept.flag false)

/-- A text or a flag is kept whatever depth is left. -/
theorem reads_keep (limit : Nat) (layout : Layout) (depth : Nat) (remark : Remark) :
    Reads (keep limit) (write layout depth remark.toJson) (.ofRemark remark) := by
  cases limit <;> exact reads_keepWith _ layout depth remark

/-! ### Lists -/

section

variable {layout : Layout} {blanks : List Char}

/-- What stands behind a comma or the opening of a list is an item. -/
theorem pure_true_of_opens {c : Char} (opening : opens c = true) (ended : Reader Bool) :
    (match some c with
      | none => fail .endOfText
      | some ']' => ended
      | some _ => pure true : Reader Bool) = pure true := by
  split
  · rename_i missing
    cases missing
  · rename_i isEnd
    rw [Option.some.inj isEnd] at opening
    cases opening
  · rfl

theorem moreItems_first (blank : Blank blanks) (depth : Nat) (json : Json) (rest : List Char) :
    moreItems true (blanks ++ (write layout depth json ++ rest)) =
      .ok (true, write layout depth json ++ rest) := by
  obtain ⟨c, tail, written, opening⟩ := exists_opens_write layout depth json
  rw [written]
  unfold moreItems
  rw [List.cons_append, bind_of_ok (peek_of_blank blank (isBlank_of_opens opening) _)]
  exact congrFun (pure_true_of_opens opening _) _

theorem moreItems_next (blank : Blank blanks) (depth : Nat) (json : Json) (rest : List Char) :
    moreItems false (',' :: (blanks ++ (write layout depth json ++ rest))) =
      .ok (true, write layout depth json ++ rest) := by
  obtain ⟨c, tail, written, opening⟩ := exists_opens_write layout depth json
  rw [written]
  unfold moreItems
  rw [bind_of_ok (peek_cons rfl _)]
  show (drop >>= fun _ => peek >>= _) _ = _
  rw [List.cons_append, bind_of_ok (drop_cons _ _),
    bind_of_ok (peek_of_blank blank (isBlank_of_opens opening) _)]
  exact congrFun (pure_true_of_opens opening _) _

theorem moreItems_end (blank : Blank blanks) (first : Bool) (rest : List Char) :
    moreItems first (blanks ++ ']' :: rest) = .ok (false, ']' :: rest) := by
  unfold moreItems
  rw [bind_of_ok (peek_of_blank blank rfl _)]
  rfl

end

section

variable {item : Reader α} {bound : Nat} {first : Bool} {text middle last rest : List Char}

theorem items_of_more {value : α} {values : List α}
    (more : moreItems first text = .ok (true, middle))
    (read : item middle = .ok (value, last))
    (later : items item bound false last = .ok (values, rest)) :
    items item (bound + 1) first text = .ok (value :: values, rest) := by
  rw [items, bind_of_ok more]
  show (item >>= fun head => items item bound false >>= fun tail => pure (head :: tail)) _ = _
  rw [bind_of_ok read, bind_of_ok later]
  rfl

theorem items_of_end (ended : moreItems first text = .ok (false, ']' :: rest)) :
    items item (bound + 1) first text = .ok ([], rest) := by
  rw [items, bind_of_ok ended]
  rfl

end

/-- A reader takes a written value back, however deep the value stands. -/
def TakesBack (layout : Layout) (reader : Reader α) (json : Json) (value : α) : Prop :=
  ∀ depth, Reads reader (write layout depth json) value

theorem delimited_writeItems {layout : Layout} (spaced : layout.Spaced) (depth : Nat)
    (items : List Json) (rest : List Char) : Delimited (writeItems layout depth items ++ rest) := by
  cases items with
  | nil =>
    rw [writeItems, List.append_assoc]
    refine (spaced.lineBreak depth).delimited fun c member => ?_
    cases member
    decide
  | cons item items =>
    intro c member
    cases member
    decide

theorem length_lt_length_writeItems (layout : Layout) (depth : Nat) (items : List Json) :
    items.length < (writeItems layout depth items).length := by
  induction items with
  | nil => simp [writeItems]
  | cons item items inductionHypothesis =>
    simp only [writeItems, List.length_cons, List.length_append]
    omega

/-- The items behind the first one, and the end of the list. -/
theorem items_writeItems {layout : Layout} (spaced : layout.Spaced) {item : Reader α}
    {jsons : List Json} {values : List α}
    (each : List.Forall₂ (TakesBack layout item) jsons values) {bound : Nat}
    (enough : jsons.length < bound) (depth : Nat) (rest : List Char) :
    items item bound false (writeItems layout depth jsons ++ rest) = .ok (values, rest) := by
  induction each generalizing bound with
  | nil =>
    obtain ⟨bound, rfl⟩ := Nat.exists_eq_add_of_lt enough
    rw [writeItems, List.append_assoc]
    exact items_of_end (moreItems_end (spaced.lineBreak depth) false rest)
  | @cons json value jsons values first more inductionHypothesis =>
    obtain ⟨bound, rfl⟩ := Nat.exists_eq_add_of_lt (Nat.zero_lt_of_lt enough)
    have read := first (depth + 1) [] _ .nil (delimited_writeItems spaced depth jsons rest)
    have later := inductionHypothesis (Nat.lt_of_succ_lt_succ enough)
    simp only [writeItems, List.cons_append, List.append_assoc]
    exact items_of_more (moreItems_next (spaced.lineBreak (depth + 1)) (depth + 1) json _) read
      later

theorem list_of_items {item : Reader α} {blanks text rest : List Char} {values : List α}
    (blank : Blank blanks) (read : items item (text.length + 1) true text = .ok (values, rest)) :
    list item (blanks ++ '[' :: text) = .ok (values, rest) := by
  unfold list
  rw [bind_of_ok (peek_of_blank blank rfl _)]
  show (drop >>= fun _ => get >>= fun text => items item (text.length + 1) true) _ = _
  rw [bind_of_ok (drop_cons _ _)]
  exact read

theorem takesBack_list {layout : Layout} (spaced : layout.Spaced) {item : Reader α}
    {jsons : List Json} {values : List α}
    (each : List.Forall₂ (TakesBack layout item) jsons values) :
    TakesBack layout (list item) (.list jsons) values := by
  intro depth blanks rest blank _
  cases each with
  | nil => exact list_of_items blank (items_of_end (moreItems_end .nil true rest))
  | @cons json value jsons values first more =>
    have read := first (depth + 1) [] _ .nil (delimited_writeItems spaced depth jsons rest)
    simp only [write, List.cons_append, List.append_assoc]
    refine list_of_items blank (items_of_more
      (moreItems_first (spaced.lineBreak (depth + 1)) (depth + 1) json _) read
      (items_writeItems spaced more ?_ depth rest))
    have fewer := length_lt_length_writeItems layout depth jsons
    simp only [List.length_append]
    omega

theorem takesBack_text (layout : Layout) (value : String) :
    TakesBack layout text (.text value) value :=
  fun _ => reads_text value

/-- A list of texts. -/
theorem takesBack_textList {layout : Layout} (spaced : layout.Spaced) (values : List String) :
    TakesBack layout textList (texts values) values := by
  refine takesBack_list spaced ?_
  rw [List.forall₂_map_left_iff, List.forall₂_same]
  exact fun value _ => takesBack_text layout value

/-! ### Objects -/

section

variable {layout : Layout} {blanks : List Char}

theorem nextKey_first (blank : Blank blanks) (key : String) (rest : List Char) :
    nextKey true (blanks ++ (quote key ++ rest)) = .ok (some key, rest) := by
  unfold nextKey
  rw [bind_of_ok (peek_quote blank key rest)]
  show (peek >>= _) ([] ++ (quote key ++ rest)) = _
  rw [bind_of_ok (peek_quote .nil key rest)]
  exact textRest_quote_bind key rest _

theorem nextKey_next (blank : Blank blanks) (key : String) (rest : List Char) :
    nextKey false (',' :: (blanks ++ (quote key ++ rest))) = .ok (some key, rest) := by
  unfold nextKey
  rw [bind_of_ok (peek_cons rfl _)]
  show (drop >>= fun _ => peek >>= _) _ = _
  rw [bind_of_ok (drop_cons _ _), bind_of_ok (peek_quote blank key rest)]
  exact textRest_quote_bind key rest _

theorem nextKey_end (blank : Blank blanks) (first : Bool) (rest : List Char) :
    nextKey first (blanks ++ '\x7d' :: rest) = .ok (none, '\x7d' :: rest) := by
  unfold nextKey
  rw [bind_of_ok (peek_of_blank blank rfl _)]
  rfl

end

/-- The value of a key takes what was read from one state to another. -/
def StepsTo {σ : Type} (layout : Layout) (step : String → σ → Reader σ) (key : String) (json : Json)
    (state next : σ) : Prop :=
  ∀ depth rest, Delimited rest →
    step key state (layout.colon ++ (write layout depth json ++ rest)) = .ok (next, rest)

/-- The members of an object take what was read from one state to another. -/
inductive Gathers {σ : Type} (layout : Layout) (step : String → σ → Reader σ) :
    σ → List (String × Json) → σ → Prop
  | nil (state : σ) : Gathers layout step state [] state
  | cons {key : String} {json : Json} {members : List (String × Json)} {state next final : σ}
    (taken : StepsTo layout step key json state next)
    (more : Gathers layout step next members final) :
    Gathers layout step state ((key, json) :: members) final

theorem Gathers.append {σ : Type} {layout : Layout} {step : String → σ → Reader σ}
    {members later : List (String × Json)} {state next final : σ}
    (gathers : Gathers layout step state members next)
    (further : Gathers layout step next later final) :
    Gathers layout step state (members ++ later) final := by
  induction gathers with
  | nil state => exact further
  | cons taken _ inductionHypothesis => exact .cons taken (inductionHypothesis further)

theorem delimited_writeMembers {layout : Layout} (spaced : layout.Spaced) (depth : Nat)
    (members : List (String × Json)) (rest : List Char) :
    Delimited (writeMembers layout depth members ++ rest) := by
  cases members with
  | nil =>
    rw [writeMembers, List.append_assoc]
    refine (spaced.lineBreak depth).delimited fun c member => ?_
    cases member
    decide
  | cons member members =>
    intro c member
    cases member
    decide

theorem length_lt_length_writeMembers (layout : Layout) (depth : Nat)
    (members : List (String × Json)) :
    members.length < (writeMembers layout depth members).length := by
  induction members with
  | nil => simp [writeMembers]
  | cons member members inductionHypothesis =>
    simp only [writeMembers, List.length_cons, List.length_append]
    omega

section

variable {σ : Type} {step : String → σ → Reader σ} {bound : Nat} {first : Bool}
  {text middle last rest : List Char} {state next final : σ}

theorem members_of_key {key : String} (more : nextKey first text = .ok (some key, middle))
    (read : step key state middle = .ok (next, last))
    (later : members step bound false next last = .ok (final, rest)) :
    members step (bound + 1) first state text = .ok (final, rest) := by
  rw [members, bind_of_ok more]
  show (step key state >>= fun next => members step bound false next) _ = _
  rw [bind_of_ok read]
  exact later

theorem members_of_end (ended : nextKey first text = .ok (none, '\x7d' :: rest)) :
    members step (bound + 1) first state text = .ok (state, rest) := by
  rw [members, bind_of_ok ended]
  rfl

/-- The members behind the first one, and the end of the object. -/
theorem members_writeMembers {layout : Layout} (spaced : layout.Spaced)
    {written : List (String × Json)} (gathers : Gathers layout step state written final)
    (enough : written.length < bound) (depth : Nat) (rest : List Char) :
    members step bound false state (writeMembers layout depth written ++ rest) =
      .ok (final, rest) := by
  induction gathers generalizing bound with
  | nil state =>
    obtain ⟨bound, rfl⟩ := Nat.exists_eq_add_of_lt enough
    rw [writeMembers, List.append_assoc]
    exact members_of_end (nextKey_end (spaced.lineBreak depth) false rest)
  | @cons key json written state next final taken more inductionHypothesis =>
    obtain ⟨bound, rfl⟩ := Nat.exists_eq_add_of_lt (Nat.zero_lt_of_lt enough)
    have read := taken (depth + 1) _ (delimited_writeMembers spaced depth written rest)
    have later := inductionHypothesis (Nat.lt_of_succ_lt_succ enough)
    simp only [writeMembers, List.cons_append, List.append_assoc]
    exact members_of_key (nextKey_next (spaced.lineBreak (depth + 1)) key _) read later

/-- An object is read as its members say. -/
theorem object_write {layout : Layout} (spaced : layout.Spaced) {written : List (String × Json)}
    (gathers : Gathers layout step state written final) (depth : Nat) (rest : List Char) :
    object step state (write layout depth (.object written) ++ rest) = .ok (final, rest) := by
  have opened {text : List Char}
      (read : members step (text.length + 1) true state text = .ok (final, rest)) :
      object step state ('\x7b' :: text) = .ok (final, rest) := by
    unfold object
    rw [bind_of_ok (drop_cons _ _)]
    exact read
  cases gathers with
  | nil => exact opened (members_of_end (nextKey_end .nil true rest))
  | @cons key json written _ next _ taken more =>
    have read := taken (depth + 1) _ (delimited_writeMembers spaced depth written rest)
    simp only [write, List.cons_append, List.append_assoc]
    refine opened (members_of_key (nextKey_first (spaced.lineBreak (depth + 1)) key _) read
      (members_writeMembers spaced more ?_ depth rest))
    have fewer := length_lt_length_writeMembers layout depth written
    simp only [List.length_append]
    omega

end

/-! ### Fields -/

/-- The value behind a key and its colon. -/
theorem colon_bind {layout : Layout} (spaced : layout.Spaced) {reader : Reader α}
    {text rest : List Char} {value : α} (reads : Reads reader text value)
    (delimited : Delimited rest) (next : α → Reader β) :
    (colon >>= fun _ => reader >>= next) (layout.colon ++ (text ++ rest)) = next value rest := by
  obtain ⟨before, after, blankBefore, blankAfter, isColon⟩ := spaced.colon
  have read : colon (before ++ ':' :: (after ++ (text ++ rest))) =
      .ok ((), after ++ (text ++ rest)) := by
    unfold colon
    rw [bind_of_ok (peek_of_blank blankBefore rfl _)]
    rfl
  rw [isColon, List.append_assoc, List.cons_append, bind_of_ok read]
  exact bind_of_ok (reads after rest blankAfter delimited)

section

variable {τ : Type} {layout : Layout}
  {step : String → List String × τ → Reader (List String × τ)}

/-- Members that are fields, each of them one of `names`, take the value that is read from one
state to another, and their keys have been seen then. -/
structure Enters (layout : Layout) (step : String → List String × τ → Reader (List String × τ))
    (names : List String) (members : List (String × Json)) (state next : τ) : Prop where
  keys : (members.map Prod.fst).Sublist names
  gathers : ∀ seen, names.Nodup → (∀ name ∈ names, name ∉ seen) →
    Gathers layout step (seen, state) members ((members.map Prod.fst).reverse ++ seen, next)

theorem Enters.append {names later : List String} {members further : List (String × Json)}
    {state next final : τ} (enters : Enters layout step names members state next)
    (entersLater : Enters layout step later further next final) :
    Enters layout step (names ++ later) (members ++ further) state final where
  keys := by
    rw [List.map_append]
    exact enters.keys.append entersLater.keys
  gathers seen distinct unseen := by
    obtain ⟨distinctNames, distinctLater, apart⟩ := List.nodup_append.mp distinct
    have first := enters.gathers seen distinctNames fun name member =>
      unseen name (List.mem_append_left _ member)
    -- The keys seen so far are names of the first part, so those of the second are still new.
    have second := entersLater.gathers ((members.map Prod.fst).reverse ++ seen) distinctLater
      fun name member known => by
        rcases List.mem_append.mp known with now | before
        · exact apart name (enters.keys.subset (List.mem_reverse.mp now)) name member rfl
        · exact unseen name (List.mem_append_right _ member) before
    have both := first.append second
    rwa [← List.append_assoc, ← List.reverse_append, ← List.map_append] at both

/-- A field that is written. -/
theorem Enters.field (spaced : layout.Spaced) (key : String) {value : Reader α} {set : τ → α → τ}
    (isOnce : ∀ seen state, step key (seen, state) = once seen key value (set state))
    {json : Json} {found : α} (takes : TakesBack layout value json found) {state : τ} :
    Enters layout step [key] [(key, json)] state (set state found) where
  keys := List.Sublist.refl _
  gathers seen _ unseen := by
    refine .cons (fun depth rest delimited => ?_) (.nil _)
    have isNew : ¬seen.contains key = true := by
      simpa using unseen key (List.mem_singleton_self key)
    rw [isOnce, once, if_neg isNew]
    exact colon_bind spaced (takes depth) delimited _

/-- A field that is left out. -/
theorem Enters.none (key : String) {state next : τ} (same : next = state) :
    Enters layout step [key] [] state next := by
  rw [same]
  exact ⟨List.nil_sublist _, fun seen _ _ => .nil _⟩

/-- A field that may be missing. -/
theorem Enters.option (spaced : layout.Spaced) (key : String) {value : Reader α}
    {set : τ → Option α → τ}
    (isOnce : ∀ seen state, step key (seen, state) = once seen key (nullable value) (set state))
    {toJson : α → Json} (takes : ∀ found, TakesBack layout value (toJson found) found)
    (found : Option α) {state : τ} (missing : set state .none = state) :
    Enters layout step [key] (Json.whenSome key (found.map toJson)) state (set state found) := by
  cases found with
  | none => exact .none key missing
  | some found => exact .field spaced key isOnce fun depth => reads_nullable (takes found depth)

/-- A flag that is left out if it does not hold. -/
theorem Enters.flag (spaced : layout.Spaced) (key : String) {set : τ → Bool → τ}
    (isOnce : ∀ seen state, step key (seen, state) = once seen key Reader.flag (set state))
    (found : Bool) {state : τ} (missing : set state false = state) :
    Enters layout step [key] (Json.whenTrue key found) state (set state found) := by
  cases found with
  | false => exact .none key missing
  | true => exact .field spaced key isOnce fun depth => reads_flag layout depth true

/-- A list that is left out if it is empty. -/
theorem Enters.list (spaced : layout.Spaced) (key : String) {item : Reader α}
    {set : τ → List α → τ}
    (isOnce : ∀ seen state, step key (seen, state) = once seen key (Reader.list item) (set state))
    {toJson : α → Json} (takes : ∀ found, TakesBack layout item (toJson found) found)
    (found : List α) {state : τ} (missing : set state [] = state) :
    Enters layout step [key] (Json.whenSome key (listed (found.map toJson))) state
      (set state found) := by
  cases found with
  | nil => exact .none key missing
  | cons first more =>
    refine .field spaced key isOnce (takesBack_list spaced ?_)
    rw [List.forall₂_map_left_iff, List.forall₂_same]
    exact fun value _ => takes value

/-- An object of fields is read as they say, and its keys have been seen. -/
theorem Enters.object_write (spaced : layout.Spaced) {names : List String}
    {members : List (String × Json)} {state final : τ} (distinct : names.Nodup)
    (enters : Enters layout step names members state final) (depth : Nat) (rest : List Char) :
    object step ([], state) (write layout depth (.object members) ++ rest) =
      .ok (((members.map Prod.fst).reverse, final), rest) := by
  have gathers := enters.gathers [] distinct fun _ _ => List.not_mem_nil
  rw [List.append_nil] at gathers
  exact Reader.object_write spaced gathers depth rest

end

theorem peek_object {blanks : List Char} (blank : Blank blanks) (layout : Layout) (depth : Nat)
    (members : List (String × Json)) (rest : List Char) :
    peek (blanks ++ (write layout depth (.object members) ++ rest)) =
      .ok (some '\x7b', write layout depth (.object members) ++ rest) := by
  rcases members with _ | ⟨⟨key, value⟩, more⟩ <;> exact peek_of_blank blank rfl _

end Reader

end DocEntities.Json
