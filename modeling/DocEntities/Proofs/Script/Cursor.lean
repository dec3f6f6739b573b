/-
This file says how parsers move through a source. A cursor stands on a token of the source and
knows where the token ends; every token but the end of the source takes characters, so a parser
that goes to the next token moves ahead. What a parser ends with is stated by a condition on what
it read and on the cursor behind it, which is carried through a parser step by step.
-/

import DocEntities.Proofs.Script.Marks
import DocEntities.Script.Program

namespace DocEntities.Script

/-! ### Tokens take characters -/

theorem isDigitOf_of_isAsciiDigit {c : Char} (digit : Text.isAsciiDigit c = true) :
    isDigitOf 10 c = true := by
  have value : Text.hexValue? c = some (c.toNat - '0'.toNat) := if_pos digit
  have upper : c ≤ '9' := by simpa using (Bool.and_eq_true_iff.mp digit).2
  have bound : c.toNat ≤ '9'.toNat := upper
  rw [isDigitOf, value]
  simp only [decide_eq_true_eq]
  have nine : '9'.toNat = 57 := rfl
  have zero : '0'.toNat = 48 := rfl
  omega

theorem closeNumber?_eq_some {text : List Char} {taken count : Nat} {token found : Token}
    (closed : closeNumber? text taken token = some (found, count)) : count = taken := by
  unfold closeNumber? at closed
  split at closed
  · cases closed
    rfl
  · cases closed

theorem basedNumber?_pos {base count : Nat} {text rest : List Char} {token : Token}
    (found : basedNumber? base text rest = some (token, count)) : 0 < count := by
  unfold basedNumber? at found
  simp only at found
  split at found
  · cases found
  · split at found <;> rw [closeNumber?_eq_some found] <;> omega

/-- A number starts with a digit or with a point. -/
theorem decimalNumber?_pos {c : Char} {rest : List Char} {token : Token} {count : Nat}
    (opens : Text.isAsciiDigit c = true ∨ c = '.')
    (found : decimalNumber? (c :: rest) = some (token, count)) : 0 < count := by
  unfold decimalNumber? at found
  simp only at found
  split at found
  · rw [closeNumber?_eq_some found]
    omega
  · obtain ⟨⟨exponent, length⟩, -, closed⟩ := Option.bind_eq_some_iff.mp found
    rw [closeNumber?_eq_some closed]
    rcases opens with digit | rfl
    · have whole : digitRun 10 (c :: rest) =
          c :: rest.takeWhile (fun c => isDigitOf 10 c || c == '_') := by
        rw [digitRun, List.takeWhile_cons_of_pos]
        rw [isDigitOf_of_isAsciiDigit digit, Bool.true_or]
      rw [whole, List.length_cons]
      omega
    · have whole : digitRun 10 ('.' :: rest) = [] := by
        rw [digitRun, List.takeWhile_cons_of_neg (by decide)]
      simp only [whole, List.length_nil, List.drop_zero]
      omega

theorem number?_pos {c : Char} {rest : List Char} {token : Token} {count : Nat}
    (opens : Text.isAsciiDigit c = true ∨ c = '.')
    (found : number? (c :: rest) = some (token, count)) : 0 < count := by
  unfold number? at found
  split at found
  · simp only at found
    split at found
    · exact basedNumber?_pos found
    · split at found
      · exact basedNumber?_pos found
      · split at found
        · exact basedNumber?_pos found
        · split at found
          · rename_i octal
            rw [closeNumber?_eq_some found]
            have long := of_decide_eq_true (Bool.and_eq_true_iff.mp octal).1
            omega
          · exact decimalNumber?_pos opens found
  · exact decimalNumber?_pos opens found

/-- A word with characters takes some. -/
theorem wordChars?_pos {bound taken : Nat} {text more : List Char} {c : Char} {escaped : Bool}
    (found : wordChars? bound text = some (c :: more, taken, escaped)) : 0 < taken := by
  unfold wordChars? at found
  split at found
  · cases found
  · split at found
    · obtain ⟨⟨code, count⟩, -, found⟩ := Option.bind_eq_some_iff.mp found
      simp only at found
      split at found
      · cases found
      · obtain ⟨⟨_, _, _⟩, -, equal⟩ := Option.bind_eq_some_iff.mp found
        cases equal
        omega
    · cases found
    · split at found
      · obtain ⟨⟨_, _, _⟩, -, equal⟩ := Option.bind_eq_some_iff.mp found
        cases equal
        omega
      · cases found
    · cases found

theorem word?_pos {bound count : Nat} {text : List Char} {token : Token}
    (found : word? bound text = some (token, count)) : 0 < count := by
  obtain ⟨⟨name, taken, escaped⟩, chars, started⟩ := Option.bind_eq_some_iff.mp found
  cases name with
  | nil => cases started
  | cons c more =>
    simp only at started
    split at started
    · cases started
      exact wordChars?_pos chars
    · cases started

theorem sign?_pos {text : List Char} {token : Token} {count : Nat}
    (found : sign? text = some (token, count)) : 0 < count := by
  obtain ⟨sign, isSign, equal⟩ := Option.map_eq_some_iff.mp found
  cases equal
  have all : ∀ sign ∈ signs, 0 < sign.length := by decide
  exact all sign (List.mem_of_find?_eq_some isSign)

/-- Every token but the end of the source takes a character at least. -/
theorem token?_pos {bound count : Nat} {text : List Char} {token : Token}
    (found : token? bound text = some (token, count)) (more : token ≠ .done) :
    0 < count ∧ text ≠ [] := by
  unfold token? at found
  split at found
  · cases found
    exact absurd rfl more
  · obtain ⟨word, -, equal⟩ := Option.map_eq_some_iff.mp found
    cases equal
    exact ⟨Nat.succ_pos _, List.cons_ne_nil _ _⟩
  · refine ⟨?_, List.cons_ne_nil _ _⟩
    split at found
    · exact number?_pos (Or.inr rfl) found
    · exact sign?_pos found
  · refine ⟨?_, List.cons_ne_nil _ _⟩
    split at found
    · obtain ⟨codes, -, equal⟩ := Option.bind_eq_some_iff.mp found
      cases equal
      exact Nat.succ_pos _
    · split at found
      · rename_i digit
        exact number?_pos (Or.inl digit) found
      · split at found
        · exact word?_pos found
        · exact sign?_pos found

/-! ### Cursors of a source -/

variable {source : List Char}

namespace Cursor

/-- Where the token of a cursor starts. -/
def offset (cursor : Cursor) : Nat :=
  cursor.here.offset

/-- A cursor stands on a token of a source. -/
structure Of (source : List Char) (cursor : Cursor) : Prop where
  here : cursor.here.Of source
  after : cursor.after.Of source
  ordered : cursor.offset ≤ cursor.after.offset
  /-- A token takes characters. -/
  taken : cursor.token ≠ .done → cursor.offset < cursor.after.offset

theorem Of.start {cursor : Cursor} (isOf : cursor.Of source) : cursor.here.position.Of source :=
  isOf.here.position

end Cursor

theorem Gap.passLine_of {gap : Gap} (isOf : gap.spot.Of source) (opening : Nat) :
    (gap.passLine opening).spot.Of source ∧ gap.spot.offset ≤ (gap.passLine opening).spot.offset :=
  ⟨isOf.advance _, Spot.le_offset_advance _ _⟩

theorem Gap.passBlock_of {gap : Gap} (isOf : gap.spot.Of source) (inside : List Char) :
    (gap.passBlock inside).spot.Of source ∧
      gap.spot.offset ≤ (gap.passBlock inside).spot.offset :=
  ⟨(isOf.advance _).advance _,
    Nat.le_trans (Spot.le_offset_advance _ _) (Spot.le_offset_advance _ _)⟩

/-- Blanks and comments are passed forwards. -/
theorem Gap.pass_of {bound : Nat} {gap passed : Gap} (isOf : gap.spot.Of source)
    (found : gap.pass bound = some passed) :
    passed.spot.Of source ∧ gap.spot.offset ≤ passed.spot.offset := by
  induction bound generalizing gap with
  | zero =>
    cases found
    exact ⟨isOf, Nat.le_refl _⟩
  | succ bound inductionHypothesis =>
    have step {next : Gap} (nextOf : next.spot.Of source)
        (ordered : gap.spot.offset ≤ next.spot.offset) (rest : next.pass bound = some passed) :
        passed.spot.Of source ∧ gap.spot.offset ≤ passed.spot.offset := by
      obtain ⟨passedOf, later⟩ := inductionHypothesis nextOf rest
      exact ⟨passedOf, Nat.le_trans ordered later⟩
    unfold pass at found
    split at found
    · cases found
      exact ⟨isOf, Nat.le_refl _⟩
    · exact step (passLine_of isOf 2).1 (passLine_of isOf 2).2 found
    · split at found
      · cases found
      · exact step (passBlock_of isOf _).1 (passBlock_of isOf _).2 found
    · exact step (passLine_of isOf 4).1 (passLine_of isOf 4).2 found
    · split at found
      · exact step (passLine_of isOf 3).1 (passLine_of isOf 3).2 found
      · cases found
        exact ⟨isOf, Nat.le_refl _⟩
    · split at found
      · exact step (isOf.advance 1) (Spot.le_offset_advance 1 gap.spot) found
      · split at found
        · exact step (isOf.advance 1) (Spot.le_offset_advance 1 gap.spot) found
        · cases found
          exact ⟨isOf, Nat.le_refl _⟩

theorem Cursor.onto_of {cursor found : Cursor} {gap : Gap} (isOf : gap.spot.Of source)
    (onto : cursor.onto gap = some found) : found.Of source ∧ found.offset = gap.spot.offset := by
  obtain ⟨⟨token, taken⟩, isToken, equal⟩ := Option.bind_eq_some_iff.mp onto
  cases equal
  refine ⟨⟨isOf, isOf.advance taken, Spot.le_offset_advance _ _, fun more => ?_⟩, rfl⟩
  obtain ⟨some, nonempty⟩ := token?_pos isToken more
  exact Spot.lt_offset_advance some nonempty

theorem Cursor.seek_of {cursor found : Cursor} {spot : Spot} (isOf : spot.Of source)
    (sought : cursor.seek spot = some found) : found.Of source ∧ spot.offset ≤ found.offset := by
  obtain ⟨gap, passed, onto⟩ := Option.bind_eq_some_iff.mp sought
  obtain ⟨gapOf, ordered⟩ := Gap.pass_of isOf passed
  obtain ⟨foundOf, starts⟩ := onto_of gapOf onto
  exact ⟨foundOf, starts ▸ ordered⟩

/-! ### What a parser ends with -/

/-- What holds of what a parser reads from a cursor on and of the cursor behind it, unless it
fails. -/
def Ends {α : Type} (parser : Parser α) (cursor : Cursor) (post : α → Cursor → Prop) : Prop :=
  ∀ value behind, parser cursor = some (value, behind) → post value behind

section Ends

variable {α β : Type} {post : β → Cursor → Prop}

theorem Ends.mono {parser : Parser α} {cursor : Cursor} {pre post : α → Cursor → Prop}
    (ends : Ends parser cursor pre) (imp : ∀ value behind, pre value behind → post value behind) :
    Ends parser cursor post :=
  fun value behind equal => imp value behind (ends value behind equal)

/-- One parser after another. -/
theorem Ends.bind {parser : Parser α} {next : α → Parser β} {cursor : Cursor}
    {middle : α → Cursor → Prop} (ends : Ends parser cursor middle)
    (later : ∀ value behind, middle value behind → Ends (next value) behind post) :
    Ends (parser >>= next) cursor post := by
  intro value behind equal
  have run : (parser >>= next) cursor =
      (parser cursor).bind fun found => next found.1 found.2 := rfl
  rw [run] at equal
  obtain ⟨⟨first, between⟩, found, last⟩ := Option.bind_eq_some_iff.mp equal
  exact later first between (ends first between found) value behind last

/-- A parser that looks ahead, and another from the same cursor on. -/
theorem Ends.look {parser : Parser α} {next : α → Parser β} {cursor : Cursor}
    {known : α → Prop}
    (stays : Ends parser cursor fun value behind => behind = cursor ∧ known value)
    (later : ∀ value, known value → Ends (next value) cursor post) :
    Ends (parser >>= next) cursor post := by
  refine stays.bind ?_
  rintro value _ ⟨rfl, holds⟩
  exact later value holds

theorem Ends.pure {value : β} {cursor : Cursor} (holds : post value cursor) :
    Ends (pure value) cursor post := by
  rintro _ _ ⟨⟩
  exact holds

theorem Ends.failure {cursor : Cursor} : Ends failure cursor post :=
  fun _ _ equal => nomatch equal

theorem Ends.get {next : Cursor → Parser β} {cursor : Cursor}
    (later : Ends (next cursor) cursor post) : Ends (get >>= next) cursor post :=
  later

theorem Ends.value {value : α} {next : α → Parser β} {cursor : Cursor}
    (later : Ends (next value) cursor post) : Ends (Pure.pure value >>= next) cursor post :=
  later

theorem Ends.ite {condition : Prop} [Decidable condition] {parser other : Parser β}
    {cursor : Cursor} (positive : condition → Ends parser cursor post)
    (negative : ¬condition → Ends other cursor post) :
    Ends (if condition then parser else other) cursor post := by
  split
  · exact positive ‹_›
  · exact negative ‹_›

end Ends

/-! ### Reading a stretch -/

/-- A parser has read an outline that lies in the stretch from an offset to the cursor. -/
structure Reads (source : List Char) (low : Nat) (outline : Outline) (cursor : Cursor) :
    Prop where
  isOf : cursor.Of source
  spans : Spans source low cursor.offset outline

namespace Reads

variable {low lower : Nat} {outline later : Outline} {cursor behind : Cursor}

theorem stay (isOf : cursor.Of source) : Reads source cursor.offset .nil cursor :=
  ⟨isOf, .nil (Nat.le_refl _)⟩

/-- What is read from the cursor on lies behind what was read up to it. -/
theorem append (reads : Reads source low outline cursor)
    (next : Reads source cursor.offset later behind) :
    Reads source low (outline ++ later) behind :=
  ⟨next.isOf, reads.spans.append next.spans⟩

theorem swap (reads : Reads source low outline cursor)
    (next : Reads source cursor.offset later behind) :
    Reads source low (later ++ outline) behind :=
  ⟨next.isOf, reads.spans.swap next.spans⟩

/-- Tokens in front of an outline. -/
theorem follow (reads : Reads source low .nil cursor)
    (next : Reads source cursor.offset outline behind) : Reads source low outline behind :=
  ⟨next.isOf, next.spans.mono reads.spans.ordered (Nat.le_refl _)⟩

/-- Tokens behind an outline. -/
theorem close (reads : Reads source low outline cursor)
    (next : Reads source cursor.offset .nil behind) : Reads source low outline behind :=
  ⟨next.isOf, reads.spans.mono (Nat.le_refl _) next.spans.ordered⟩

theorem mono (reads : Reads source low outline cursor) (below : lower ≤ low) :
    Reads source lower outline cursor :=
  ⟨reads.isOf, reads.spans.mono below (Nat.le_refl _)⟩

theorem weaken (reads : Reads source (low + 1) outline cursor) : Reads source low outline cursor :=
  reads.mono (Nat.le_succ low)

theorem congr (reads : Reads source low outline cursor)
    (same : ∀ depth, later.marks depth = outline.marks depth) : Reads source low later cursor :=
  ⟨reads.isOf, reads.spans.congr same⟩

/-- What was read counts for nothing. -/
theorem forget (reads : Reads source low outline cursor) : Reads source low .nil cursor :=
  ⟨reads.isOf, .nil reads.spans.ordered⟩

theorem inFunction (reads : Reads source (low + 1) outline cursor) :
    Reads source low (Outline.inFunction outline) cursor :=
  ⟨reads.isOf, reads.spans.inFunction⟩

theorem within (reads : Reads source low outline cursor) (segments : List String) :
    Reads source low (.within segments outline .nil) cursor :=
  ⟨reads.isOf, reads.spans.within segments⟩

theorem contained (reads : Reads source low outline cursor) (container : Option String) :
    Reads source low (Outline.contained container outline) cursor :=
  ⟨reads.isOf, reads.spans.contained container⟩

theorem single {start : Position} {shape : Shape} (reads : Reads source low outline cursor)
    (placed : start.Of source) (starts : start.offset = low) (ordered : low < cursor.offset)
    (plain : shape.isProperty = false) :
    Reads source low (Outline.single start shape outline) cursor :=
  ⟨reads.isOf, reads.spans.single placed starts ordered plain⟩

theorem tail (reads : Reads source low outline cursor)
    (opens : ∀ depth, ∃ mark, outline.marks depth = mark :: later.marks depth) :
    Reads source low later cursor :=
  ⟨reads.isOf, reads.spans.tail opens⟩

theorem again {start : Position} {shape : Shape} (reads : Reads source low outline cursor)
    (inside : ∀ depth, ⟨start, depth, false⟩ ∈ outline.marks depth)
    (plain : shape.isProperty = false) :
    Reads source low (Outline.single start shape outline) cursor :=
  ⟨reads.isOf, reads.spans.again inside plain⟩

/-- A site whose first token stands before everything in it. -/
theorem site {first : Cursor} {shape : Shape} (isOf : first.Of source)
    (reads : Reads source (first.offset + 1) outline cursor) :
    Reads source first.offset (Outline.single first.here.position shape outline) cursor :=
  ⟨reads.isOf, reads.spans.single_of_lt isOf.start rfl⟩

theorem functionSite {first : Cursor} {shape : Shape} (isOf : first.Of source)
    (reads : Reads source (first.offset + 1) outline cursor) :
    Reads source first.offset
      (Outline.single first.here.position shape (Outline.inFunction outline)) cursor :=
  ⟨reads.isOf, reads.spans.single_inFunction isOf.start rfl⟩

end Reads

/-! ### Single tokens -/

namespace Token

theorem ne_done_of_isSign {token : Token} {text : String} (isSign : token.isSign text = true) :
    token ≠ .done := by
  rw [beq_iff_eq.mp isSign]
  exact nofun

theorem ne_done_of_isWord {token : Token} {name : String} (isWord : token.isWord name = true) :
    token ≠ .done := by
  rw [beq_iff_eq.mp isWord]
  exact nofun

theorem ne_done_of_name? {token : Token} (named : token.name?.isSome = true) : token ≠ .done := by
  rintro rfl
  cases named

end Token

namespace Parser

variable {cursor : Cursor} {α β : Type} {post : β → Cursor → Prop}

theorem reads_seek {spot : Spot} (isOf : spot.Of source) :
    Ends (seek spot) cursor fun _ behind => Reads source spot.offset .nil behind := by
  intro value behind equal
  obtain ⟨found, sought, same⟩ := Option.map_eq_some_iff.mp equal
  cases same
  obtain ⟨foundOf, ordered⟩ := Cursor.seek_of isOf sought
  exact ⟨foundOf, .nil ordered⟩

theorem reads_next (isOf : cursor.Of source) (more : cursor.token ≠ .done) :
    Ends next cursor fun _ behind => Reads source (cursor.offset + 1) .nil behind := by
  unfold next
  exact .get ((reads_seek isOf.after).mono fun _ _ reads => reads.mono (isOf.taken more))

/-- At the end of the source there is no next token, but none before it either. -/
theorem reads_next_le (isOf : cursor.Of source) :
    Ends next cursor fun _ behind => Reads source cursor.offset .nil behind := by
  unfold next
  exact .get ((reads_seek isOf.after).mono fun _ _ reads => reads.mono isOf.ordered)

/-- A token that may be skipped. -/
theorem ends_skip {condition : Prop} [Decidable condition] {parser : Unit → Parser β}
    (isOf : cursor.Of source)
    (later : ∀ behind, Reads source cursor.offset .nil behind → Ends (parser ()) behind post) :
    Ends (if condition then next >>= parser else parser ()) cursor post := by
  refine .ite (fun _ => ?_) fun _ => later cursor (.stay isOf)
  exact (reads_next_le isOf).bind fun _ behind passed => later behind passed

theorem ends_given {value : Option α} {parser : α → Parser β}
    (later : ∀ found, value = some found → Ends (parser found) cursor post) :
    Ends (given value >>= parser) cursor post := by
  cases value with
  | none => exact .failure
  | some found => exact later found rfl

theorem ends_peek {parser : Cursor → Parser β} (later : ∀ found, Ends (parser found) cursor post) :
    Ends (peek >>= parser) cursor post := by
  have stays : Ends peek cursor fun _ behind => behind = cursor ∧ True := by
    unfold peek
    refine .get ?_
    split
    · exact .failure
    · exact .pure ⟨rfl, trivial⟩
  exact stays.look fun found _ => later found

theorem ends_position {parser : Position → Parser β}
    (later : Ends (parser cursor.here.position) cursor post) :
    Ends (position >>= parser) cursor post :=
  later

theorem ends_onNewLine {parser : Bool → Parser β}
    (later : ∀ found, Ends (parser found) cursor post) :
    Ends (onNewLine >>= parser) cursor post :=
  later _

theorem ends_atSign {text : String} {parser : Bool → Parser β}
    (later : Ends (parser (cursor.token.isSign text)) cursor post) :
    Ends (atSign text >>= parser) cursor post :=
  later

theorem ends_atWord {name : String} {parser : Bool → Parser β}
    (later : Ends (parser (cursor.token.isWord name)) cursor post) :
    Ends (atWord name >>= parser) cursor post :=
  later

/-- A token that may be there: it is taken, or the cursor stays. -/
def TakesOrStays (source : List Char) (taking : Parser Bool) (cursor : Cursor) : Prop :=
  Ends taking cursor fun isThere behind =>
    if isThere then Reads source (cursor.offset + 1) .nil behind else behind = cursor

theorem takesOrStays {present : Bool} (isOf : cursor.Of source)
    (more : present = true → cursor.token ≠ .done) :
    TakesOrStays source
      (if present then next >>= fun _ => Pure.pure true else Pure.pure false) cursor := by
  refine .ite (fun isThere => ?_) fun _ => .pure rfl
  exact (reads_next isOf (more isThere)).bind fun _ _ reads => .pure reads

theorem takesOrStays_takeSign (text : String) (isOf : cursor.Of source) :
    TakesOrStays source (takeSign text) cursor :=
  takesOrStays isOf Token.ne_done_of_isSign

theorem takesOrStays_takeWord (name : String) (isOf : cursor.Of source) :
    TakesOrStays source (takeWord name) cursor :=
  takesOrStays isOf Token.ne_done_of_isWord

namespace TakesOrStays

variable {taking : Parser Bool}

theorem bind {parser : Bool → Parser β} (takes : TakesOrStays source taking cursor)
    (taken : ∀ behind, Reads source (cursor.offset + 1) .nil behind →
      Ends (parser true) behind post)
    (left : Ends (parser false) cursor post) : Ends (taking >>= parser) cursor post := by
  refine Ends.bind takes fun isThere behind holds => ?_
  cases isThere with
  | true => exact taken behind holds
  | false =>
    cases holds
    exact left

theorem reads (takes : TakesOrStays source taking cursor) (isOf : cursor.Of source) :
    Ends taking cursor fun _ behind => Reads source cursor.offset .nil behind := by
  refine Ends.mono takes fun isThere behind holds => ?_
  cases isThere with
  | true => exact Reads.weaken holds
  | false =>
    cases holds
    exact .stay isOf

end TakesOrStays

theorem ends_takeSign {text : String} {parser : Bool → Parser β} (isOf : cursor.Of source)
    (taken : ∀ behind, Reads source (cursor.offset + 1) .nil behind →
      Ends (parser true) behind post)
    (left : Ends (parser false) cursor post) : Ends (takeSign text >>= parser) cursor post :=
  (takesOrStays_takeSign text isOf).bind taken left

theorem ends_takeWord {name : String} {parser : Bool → Parser β} (isOf : cursor.Of source)
    (taken : ∀ behind, Reads source (cursor.offset + 1) .nil behind →
      Ends (parser true) behind post)
    (left : Ends (parser false) cursor post) : Ends (takeWord name >>= parser) cursor post :=
  (takesOrStays_takeWord name isOf).bind taken left

theorem reads_takeSign (text : String) (isOf : cursor.Of source) :
    Ends (takeSign text) cursor fun _ behind => Reads source cursor.offset .nil behind :=
  (takesOrStays_takeSign text isOf).reads isOf

theorem reads_takeWord (name : String) (isOf : cursor.Of source) :
    Ends (takeWord name) cursor fun _ behind => Reads source cursor.offset .nil behind :=
  (takesOrStays_takeWord name isOf).reads isOf

theorem reads_sign (text : String) (isOf : cursor.Of source) :
    Ends (sign text) cursor fun _ behind => Reads source (cursor.offset + 1) .nil behind :=
  ends_takeSign isOf (fun _ reads => .pure reads) .failure

theorem reads_word (name : String) (isOf : cursor.Of source) :
    Ends (word name) cursor fun _ behind => Reads source (cursor.offset + 1) .nil behind :=
  ends_takeWord isOf (fun _ reads => .pure reads) .failure

theorem reads_name (isOf : cursor.Of source) :
    Ends name cursor fun _ behind => Reads source (cursor.offset + 1) .nil behind := by
  unfold name
  refine .get ?_
  split
  · rename_i found named
    have more : cursor.token ≠ .done := Token.ne_done_of_name? (by rw [named]; rfl)
    exact (reads_next isOf more).bind fun _ _ reads => .pure reads
  · exact .failure

theorem reads_semicolon (isOf : cursor.Of source) :
    Ends semicolon cursor fun _ behind => Reads source cursor.offset .nil behind := by
  unfold semicolon
  refine .get (.ite (fun isSign => ?_) fun _ => ?_)
  · exact (reads_next isOf (Token.ne_done_of_isSign isSign)).mono fun _ _ reads => reads.weaken
  · exact .ite (fun _ => .pure (.stay isOf)) fun _ => .failure

end Parser

end DocEntities.Script
