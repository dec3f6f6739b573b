/-
This file says how a line that assigns is read. The forms overlap, but each of them looks for a
sign with a text in front of it that says which entity the line defines, its target: a declared
name, a member of a prototype, or a member of something else. A line has at most one first sign and
at most one target in front of it, so the form is found from the target and from what stands behind
the sign; the order in which the forms are tried only matters where a function is a value, too.
Other than by its target, a line has a form only as the statement of a function.
-/

import DocEntities.LineForm
import DocEntities.Proofs.Text

namespace DocEntities

namespace LineForm

/-- A name in a line. -/
def IsName (text : List Char) : Prop :=
  text ≠ [] ∧ ∀ c ∈ text, isNameChar c = true

/-- Whether a text does not go on with a character of a name. -/
def EndsName (text : List Char) : Prop :=
  ∀ c ∈ text.head?, isNameChar c = false

theorem takeWhile_of_endsName {rest : List Char} (ends : EndsName rest) :
    rest.takeWhile isNameChar = [] := by
  cases rest with
  | nil => rfl
  | cons c more => exact List.takeWhile_cons_of_neg (by simp [ends c rfl])

theorem dropWhile_of_endsName {rest : List Char} (ends : EndsName rest) :
    rest.dropWhile isNameChar = rest := by
  cases rest with
  | nil => rfl
  | cons c more => exact List.dropWhile_cons_of_neg (by simp [ends c rfl])

theorem name?_append {name rest : List Char} (named : IsName name) (ends : EndsName rest) :
    name? (name ++ rest) = some (name, rest) := by
  unfold name?
  rw [List.takeWhile_append_of_pos named.2, List.dropWhile_append_of_pos named.2,
    takeWhile_of_endsName ends, dropWhile_of_endsName ends, List.append_nil]
  obtain ⟨c, more, rfl⟩ := List.exists_cons_of_ne_nil named.1
  rfl

theorem of_name?_eq_some {text name rest : List Char} (read : name? text = some (name, rest)) :
    IsName name ∧ text = name ++ rest := by
  unfold name? at read
  split at read
  · cases read
  · rename_i other
    cases read
    exact ⟨⟨fun nothing => other nothing, fun c member => List.mem_takeWhile_imp member⟩,
      List.takeWhile_append_dropWhile.symm⟩

theorem of_afterBlanks?_eq_some {text rest : List Char} (read : afterBlanks? text = some rest) :
    ∃ blanks, blanks ≠ [] ∧ (∀ c ∈ blanks, Text.isSpace c = true) ∧ text = blanks ++ rest := by
  cases text with
  | nil => cases read
  | cons c more =>
    rw [afterBlanks?] at read
    split at read
    · rename_i blank
      obtain rfl := Option.some.inj read
      refine ⟨c :: more.takeWhile Text.isSpace, List.cons_ne_nil _ _, ?_, ?_⟩
      · exact List.forall_mem_cons.mpr ⟨blank, fun d member => List.mem_takeWhile_imp member⟩
      · rw [List.cons_append, Text.trimStart, List.takeWhile_append_dropWhile]
    · cases read

theorem afterBlanks?_append {blanks text : List Char} (some : blanks ≠ [])
    (blank : ∀ c ∈ blanks, Text.isSpace c = true)
    (dark : ∀ c ∈ text.head?, Text.isSpace c = false) :
    afterBlanks? (blanks ++ text) = Option.some text := by
  obtain ⟨c, more, rfl⟩ := List.exists_cons_of_ne_nil some
  obtain ⟨first, later⟩ := List.forall_mem_cons.mp blank
  rw [List.cons_append, afterBlanks?, if_pos first, Text.trimStart_append_of_blank later]
  cases text with
  | nil => rfl
  | cons d rest => rw [Text.trimStart_cons_of_not_blank (dark d rfl)]

theorem afterAssign?_eq_some_iff {text value : List Char} :
    afterAssign? text = some value ↔
      ∃ blanks, (∀ c ∈ blanks, Text.isInlineBlank c = true) ∧ text = blanks ++ '=' :: value := by
  constructor
  · intro read
    unfold afterAssign? at read
    split at read
    · rename_i rest sign
      obtain rfl := Option.some.inj read
      exact ⟨text.takeWhile Text.isInlineBlank, fun c member => List.mem_takeWhile_imp member,
        by rw [← sign, List.takeWhile_append_dropWhile]⟩
    · cases read
  · rintro ⟨blanks, blank, rfl⟩
    unfold afterAssign?
    rw [List.dropWhile_append_of_pos blank, List.dropWhile_cons_of_neg (by decide)]
    rfl

theorem afterAssign?_append {blanks : List Char}
    (blank : ∀ c ∈ blanks, Text.isInlineBlank c = true) (value : List Char) :
    afterAssign? (blanks ++ '=' :: value) = some value :=
  afterAssign?_eq_some_iff.mpr ⟨blanks, blank, rfl⟩

/-! ### Targets -/

/-- A text assigns a value to what stands in front of the sign and of the blanks before it. -/
def Assigns (text left value : List Char) : Prop :=
  ∃ blanks, (∀ c ∈ blanks, Text.isInlineBlank c = true) ∧ text = left ++ (blanks ++ '=' :: value)

/-- A character of a chain of names. -/
def isChainChar (c : Char) : Bool :=
  isNameChar c || c == '.'

theorem isChainChar_iff {c : Char} : isChainChar c = true ↔ isNameChar c = true ∨ c = '.' := by
  rw [isChainChar, Bool.or_eq_true, beq_iff_eq]

/-- What stands in front of an assignment sign, if it says which entity the line defines. -/
inductive Target where
  /-- `var name` -/
  | declared (keyword blanks name : List Char)
  /-- `Owner.prototype.name` -/
  | prototypeMember (owner name : List Char)
  /-- `receiver.name` -/
  | member (receiver name : List Char)

namespace Target

def keywords : List (List Char) := ["var".toList, "let".toList, "const".toList]

/-- A target as it stands in a line. -/
def text : Target → List Char
  | .declared keyword blanks name => keyword ++ (blanks ++ name)
  | .prototypeMember owner name => owner ++ (".prototype.".toList ++ name)
  | .member receiver name => receiver ++ '.' :: name

/-- A receiver may be a chain of names, but not one that ends with the prototype of a name. -/
def IsWellFormed : Target → Prop
  | .declared keyword blanks name =>
    keyword ∈ keywords ∧ blanks ≠ [] ∧ (∀ c ∈ blanks, Text.isSpace c = true) ∧ IsName name
  | .prototypeMember owner name => IsName owner ∧ IsName name
  | .member receiver name =>
    receiver ≠ [] ∧ (∀ c ∈ receiver, isChainChar c = true) ∧
      (∀ owner, IsName owner → receiver ≠ owner ++ ".prototype".toList) ∧ IsName name

end Target

/-! ### Characters -/

/-- No blank stands in a name. -/
theorem not_isNameChar_of_isSpace {c : Char} (blank : Text.isSpace c = true) :
    isNameChar c = false := by
  have blanks : ∀ code ∈ [9, 10, 11, 12, 13, 0x20, 0x85, 0xA0, 0x1680, 0x2000, 0x2001, 0x2002,
      0x2003, 0x2004, 0x2005, 0x2006, 0x2007, 0x2008, 0x2009, 0x200A, 0x2028, 0x2029, 0x202F,
      0x205F, 0x3000], isNameChar (Char.ofNat code) = false := by decide +kernel
  rw [← Char.ofNat_toNat c]
  refine blanks _ ?_
  simp [Text.isSpace] at blank ⊢
  omega

theorem not_isSpace_of_isNameChar {c : Char} (named : isNameChar c = true) :
    Text.isSpace c = false := by
  by_contra blank
  rw [not_isNameChar_of_isSpace (by simpa using blank)] at named
  cases named

theorem IsName.dark {name : List Char} (named : IsName name) (rest : List Char) :
    ∀ c ∈ (name ++ rest).head?, Text.isSpace c = false := by
  obtain ⟨c, more, rfl⟩ := List.exists_cons_of_ne_nil named.1
  intro d first
  obtain rfl := Option.some.inj first
  exact not_isSpace_of_isNameChar (named.2 c List.mem_cons_self)

theorem endsName_of_blanks {blanks rest : List Char}
    (blank : ∀ c ∈ blanks, Text.isSpace c = true) (ends : EndsName rest) :
    EndsName (blanks ++ rest) := by
  cases blanks with
  | nil => exact ends
  | cons c more =>
    intro d first
    obtain rfl := Option.some.inj first
    exact not_isNameChar_of_isSpace (blank c List.mem_cons_self)

theorem endsName_cons {c : Char} (closes : isNameChar c = false) (rest : List Char) :
    EndsName (c :: rest) := by
  intro d first
  exact Option.some.inj first ▸ closes

theorem endsName_sign {blanks : List Char} (blank : ∀ c ∈ blanks, Text.isInlineBlank c = true)
    (value : List Char) : EndsName (blanks ++ '=' :: value) :=
  endsName_of_blanks (fun c member => Text.isSpace_of_isInlineBlank (blank c member))
    (endsName_cons (by decide) value)

theorem IsName.free {name : List Char} (named : IsName name) {c : Char}
    (closes : isNameChar c = false) : c ∉ name := by
  intro member
  rw [named.2 c member] at closes
  cases closes

/-! ### What is in front of the sign -/

/-- A text that the blanks in front of a sign, and the sign, can be told from. -/
def IsBare (text : List Char) : Prop :=
  '=' ∉ text ∧ ∀ c ∈ text.getLast?, Text.isInlineBlank c = false

theorem isBare_append {front name : List Char} (free : '=' ∉ front) (named : IsName name) :
    IsBare (front ++ name) := by
  refine ⟨fun member => ?_, fun c last => ?_⟩
  · rcases List.mem_append.mp member with inFront | inName
    · exact free inFront
    · exact named.free (by decide) inName
  · rw [List.getLast?_append_of_ne_nil _ named.1] at last
    have isName := named.2 c (List.mem_of_getLast? last)
    by_contra blank
    rw [not_isNameChar_of_isSpace (Text.isSpace_of_isInlineBlank (by simpa using blank))] at isName
    cases isName

/-- Where a bare text and blanks come to the same as another text and blanks, the bare text is the
start of the other. -/
theorem IsBare.exists_append_of_append_eq {text other blanks gap : List Char} (bare : IsBare text)
    (isGap : ∀ c ∈ gap, Text.isInlineBlank c = true)
    (blank : ∀ c ∈ blanks, Text.isInlineBlank c = true) (same : other ++ gap = text ++ blanks) :
    ∃ more, (∀ c ∈ more, Text.isInlineBlank c = true) ∧ other = text ++ more := by
  rcases List.append_eq_append_iff.mp same with ⟨more, rfl, rfl⟩ | ⟨more, rfl, rfl⟩
  · rcases List.eq_nil_or_concat more with rfl | ⟨front, last, rfl⟩
    · exact ⟨[], nofun, by simp⟩
    · have isBlank := isGap last (by simp)
      rw [bare.2 last (by simp)] at isBlank
      cases isBlank
  · exact ⟨more, fun c member => blank c (List.mem_append_left _ member), rfl⟩

theorem sign_not_mem_of_blank {blanks : List Char}
    (blank : ∀ c ∈ blanks, Text.isInlineBlank c = true) : '=' ∉ blanks :=
  fun member => absurd (blank _ member) (by decide)

/-- An assignment has one left side and one value. -/
theorem Assigns.unique {text left other value otherValue : List Char}
    (assigns : Assigns text left value) (otherAssigns : Assigns text other otherValue)
    (bare : IsBare left) (otherBare : IsBare other) : left = other ∧ value = otherValue := by
  obtain ⟨blanks, blank, rfl⟩ := assigns
  obtain ⟨otherBlanks, otherBlank, same⟩ := otherAssigns
  rw [← List.append_assoc, ← List.append_assoc, Text.append_cons_eq_append_cons_iff] at same
  · obtain ⟨fronts, values⟩ := same
    obtain ⟨more, -, whole⟩ := bare.exists_append_of_append_eq otherBlank blank fronts.symm
    obtain ⟨rest, -, again⟩ := otherBare.exists_append_of_append_eq blank otherBlank fronts
    refine ⟨?_, values⟩
    have lengths := congrArg List.length again
    rw [whole, List.length_append, List.length_append] at lengths
    rw [whole, List.eq_nil_of_length_eq_zero (show more.length = 0 by omega), List.append_nil]
  · rw [List.mem_append]
    exact fun member => member.elim bare.1 (sign_not_mem_of_blank blank)
  · rw [List.mem_append]
    exact fun member => member.elim otherBare.1 (sign_not_mem_of_blank otherBlank)

namespace Target

theorem char_of_mem_text {target : Target} (formed : target.IsWellFormed) {c : Char}
    (member : c ∈ target.text) : isNameChar c = true ∨ Text.isSpace c = true ∨ c = '.' := by
  cases target with
  | declared keyword blanks name =>
    obtain ⟨isKeyword, -, blank, named⟩ := formed
    have letters : keywords.all (fun word => word.all isNameChar) = true := by decide
    rw [text, List.mem_append, List.mem_append] at member
    rcases member with inKeyword | between | inName
    · exact Or.inl
        (List.all_eq_true.mp (List.all_eq_true.mp letters keyword isKeyword) c inKeyword)
    · exact Or.inr (Or.inl (blank c between))
    · exact Or.inl (named.2 c inName)
  | prototypeMember owner name =>
    have letters : ".prototype.".toList.all isChainChar = true := by decide
    rw [text, List.mem_append, List.mem_append] at member
    rcases member with inOwner | between | inName
    · exact Or.inl (formed.1.2 c inOwner)
    · exact (isChainChar_iff.mp (List.all_eq_true.mp letters c between)).imp_right Or.inr
    · exact Or.inl (formed.2.2 c inName)
  | member receiver name =>
    obtain ⟨-, chain, -, named⟩ := formed
    rw [text, List.mem_append, List.mem_cons] at member
    rcases member with inReceiver | dot | inName
    · exact (isChainChar_iff.mp (chain c inReceiver)).imp_right Or.inr
    · exact Or.inr (Or.inr dot)
    · exact Or.inl (named.2 c inName)

theorem free {target : Target} (formed : target.IsWellFormed) {c : Char}
    (closes : isNameChar c = false) (dark : Text.isSpace c = false) (other : c ≠ '.') :
    c ∉ target.text := by
  intro member
  rcases char_of_mem_text formed member with named | blank | dot
  · rw [named] at closes; cases closes
  · rw [blank] at dark; cases dark
  · exact other dot

theorem isBare {target : Target} (formed : target.IsWellFormed) : IsBare target.text := by
  have noSign := free formed (show isNameChar '=' = false by decide) (by decide) (by decide)
  have split : ∃ front name, target.text = front ++ name ∧ IsName name := by
    cases target with
    | declared keyword blanks name =>
      exact ⟨keyword ++ blanks, name, (List.append_assoc _ _ _).symm, formed.2.2.2⟩
    | prototypeMember owner name =>
      exact ⟨owner ++ ".prototype.".toList, name, (List.append_assoc _ _ _).symm, formed.2⟩
    | member receiver name =>
      exact ⟨receiver ++ ['.'], name, by simp [text], formed.2.2.2⟩
  obtain ⟨front, name, whole, named⟩ := split
  rw [whole] at noSign ⊢
  exact isBare_append (fun member => noSign (List.mem_append_left _ member)) named

/-- A target opens with a character that is not blank. -/
theorem exists_eq_cons {target : Target} (formed : target.IsWellFormed) :
    ∃ c rest, target.text = c :: rest ∧ Text.isSpace c = false := by
  cases target with
  | declared keyword blanks name =>
    have words : ∀ word ∈ keywords, ∃ c rest, word = c :: rest ∧ Text.isSpace c = false := by
      intro word member
      simp only [keywords, List.mem_cons, List.not_mem_nil, or_false] at member
      rcases member with rfl | rfl | rfl <;> exact ⟨_, _, rfl, by decide⟩
    obtain ⟨c, rest, rfl, dark⟩ := words keyword formed.1
    exact ⟨c, _, rfl, dark⟩
  | prototypeMember owner name =>
    obtain ⟨c, rest, rfl⟩ := List.exists_cons_of_ne_nil formed.1.1
    exact ⟨c, _, rfl, not_isSpace_of_isNameChar (formed.1.2 c List.mem_cons_self)⟩
  | member receiver name =>
    obtain ⟨some, chain, -⟩ := formed
    obtain ⟨c, rest, rfl⟩ := List.exists_cons_of_ne_nil some
    refine ⟨c, _, rfl, ?_⟩
    rcases isChainChar_iff.mp (chain c List.mem_cons_self) with named | rfl
    · exact not_isSpace_of_isNameChar named
    · decide

end Target

/-! ### Readings -/

theorem declared?_sound {text name value : List Char}
    (read : declared? text = some (name, value)) :
    ∃ keyword blanks, (Target.declared keyword blanks name).IsWellFormed ∧
      Assigns text (Target.declared keyword blanks name).text value := by
  simp only [declared?, Option.bind_eq_bind, Option.bind_eq_some_iff] at read
  obtain ⟨behind, keyword?, named, blanks?, ⟨first, behindName⟩, name?, found, sign?, done⟩ := read
  cases done
  obtain ⟨keyword, isKeyword, rfl⟩ : ∃ keyword ∈ Target.keywords, text = keyword ++ behind := by
    simp only [Option.or_eq_some_iff, Text.afterStart?_eq_some_iff] at keyword?
    rcases keyword? with here | ⟨-, here | ⟨-, here⟩⟩
    · exact ⟨_, List.mem_cons_self, here⟩
    · exact ⟨_, List.mem_cons_of_mem _ List.mem_cons_self, here⟩
    · exact ⟨_, List.mem_cons_of_mem _ (List.mem_cons_of_mem _ List.mem_cons_self), here⟩
  obtain ⟨blanks, some, blank, rfl⟩ := of_afterBlanks?_eq_some blanks?
  obtain ⟨isName, rfl⟩ := of_name?_eq_some name?
  obtain ⟨gap, isGap, rfl⟩ := afterAssign?_eq_some_iff.mp sign?
  exact ⟨keyword, blanks, ⟨isKeyword, some, blank, isName⟩, gap, isGap, by simp [Target.text]⟩

theorem declared?_of_assigns {text keyword blanks name value : List Char}
    (formed : (Target.declared keyword blanks name).IsWellFormed)
    (assigns : Assigns text (Target.declared keyword blanks name).text value) :
    declared? text = some (name, value) := by
  obtain ⟨isKeyword, some, blank, named⟩ := formed
  obtain ⟨gap, isGap, rfl⟩ := assigns
  have keyword? : ∀ rest, (Text.afterStart? "var".toList (keyword ++ rest)).or
      ((Text.afterStart? "let".toList (keyword ++ rest)).or
        (Text.afterStart? "const".toList (keyword ++ rest))) = Option.some rest := by
    intro rest
    simp only [Target.keywords, List.mem_cons, List.not_mem_nil, or_false] at isKeyword
    rcases isKeyword with rfl | rfl | rfl <;> rfl
  rw [Target.text, List.append_assoc, List.append_assoc]
  simp only [declared?, keyword?, Option.bind_eq_bind, Option.bind_some,
    afterBlanks?_append some blank (named.dark _), name?_append named (endsName_sign isGap value),
    afterAssign?_append isGap]
  rfl

/-- Two names with a text between them, and what follows the assignment sign. -/
def joined? (between text : List Char) : Option (List Char × List Char × List Char) := do
  let (owner, rest) ← name? text
  let rest ← Text.afterStart? between rest
  let (name, rest) ← name? rest
  return (owner, name, ← afterAssign? rest)

theorem joined?_eq_some_iff {between text owner name value : List Char}
    (ends : ∀ rest, EndsName (between ++ rest)) :
    joined? between text = some (owner, name, value) ↔
      IsName owner ∧ IsName name ∧ Assigns text (owner ++ (between ++ name)) value := by
  constructor
  · intro read
    simp only [joined?, Option.bind_eq_bind, Option.bind_eq_some_iff] at read
    obtain ⟨⟨first, behindOwner⟩, owner?, behind, between?, ⟨second, behindName⟩, name?, found,
      sign?, done⟩ := read
    cases done
    obtain ⟨isOwner, rfl⟩ := of_name?_eq_some owner?
    obtain rfl := Text.afterStart?_eq_some_iff.mp between?
    obtain ⟨isName, rfl⟩ := of_name?_eq_some name?
    obtain ⟨gap, isGap, rfl⟩ := afterAssign?_eq_some_iff.mp sign?
    exact ⟨isOwner, isName, gap, isGap, by simp⟩
  · rintro ⟨isOwner, isName, gap, isGap, rfl⟩
    have between? : Text.afterStart? between (between ++ (name ++ (gap ++ '=' :: value))) =
        some (name ++ (gap ++ '=' :: value)) := Text.afterStart?_eq_some_iff.mpr rfl
    rw [List.append_assoc, List.append_assoc]
    simp only [joined?, Option.bind_eq_bind, name?_append isOwner (ends _), Option.bind_some,
      between?, name?_append isName (endsName_sign isGap value), afterAssign?_append isGap]
    rfl

theorem prototypeMember?_eq_some_iff {text owner name value : List Char} :
    prototypeMember? text = some (owner, name, value) ↔
      (Target.prototypeMember owner name).IsWellFormed ∧
        Assigns text (Target.prototypeMember owner name).text value := by
  rw [Target.IsWellFormed, and_assoc]
  exact joined?_eq_some_iff fun rest =>
    endsName_cons (show isNameChar '.' = false by decide) ("prototype.".toList ++ rest)

theorem plainMember?_eq_some_iff {text receiver name value : List Char} :
    plainMember? text = some (receiver, name, value) ↔
      IsName receiver ∧ IsName name ∧ Assigns text (Target.member receiver name).text value :=
  @joined?_eq_some_iff ['.'] _ _ _ _ fun rest =>
    endsName_cons (show isNameChar '.' = false by decide) rest

/-- What stands behind the last dot of a chain. -/
def lastName (chain : List Char) : List Char :=
  (chain.reverse.takeWhile (· != '.')).reverse

/-- What stands in front of the last dot of a chain. -/
def frontChain (chain : List Char) : List Char :=
  ((chain.reverse.dropWhile (· != '.')).drop 1).reverse

theorem chainMember?_eq (text : List Char) :
    chainMember? text =
      let chain := text.takeWhile isChainChar
      if (lastName chain).isEmpty || (frontChain chain).isEmpty then none
      else
        (afterAssign? (text.dropWhile isChainChar)).map (frontChain chain, lastName chain, ·) := by
  unfold chainMember?
  simp only [Option.map_eq_bind]
  rfl

theorem parts_of_chain {receiver name : List Char} (named : IsName name) :
    frontChain (receiver ++ '.' :: name) = receiver ∧
      lastName (receiver ++ '.' :: name) = name := by
  have free : ∀ c ∈ name.reverse, (c != '.') = true := by
    intro c member
    have dot := named.free (show isNameChar '.' = false by decide)
    exact bne_iff_ne.mpr fun same => dot (same ▸ List.mem_reverse.mp member)
  simp only [frontChain, lastName, List.reverse_append, List.reverse_cons, List.append_assoc,
    List.singleton_append, List.takeWhile_append_of_pos free, List.dropWhile_append_of_pos free]
  simp

theorem eq_of_frontChain_ne_nil {chain : List Char} (some : frontChain chain ≠ []) :
    chain = frontChain chain ++ '.' :: lastName chain := by
  have parts := @List.takeWhile_append_dropWhile _ (· != '.') chain.reverse
  cases behind : chain.reverse.dropWhile (· != '.') with
  | nil => exact absurd (by rw [frontChain, behind]; rfl) some
  | cons c more =>
    have dot : c = '.' := by
      have stops := List.head?_dropWhile_not (· != '.') chain.reverse
      rw [behind] at stops
      simpa using stops
    rw [behind, dot] at parts
    rw [← List.reverse_inj, frontChain, lastName, behind]
    simp [parts]

theorem chainMember?_eq_some_iff {text receiver name value : List Char} :
    chainMember? text = some (receiver, name, value) ↔
      receiver ≠ [] ∧ (∀ c ∈ receiver, isChainChar c = true) ∧ IsName name ∧
        Assigns text (Target.member receiver name).text value := by
  rw [chainMember?_eq]
  constructor
  · intro read
    simp only at read
    split at read
    · cases read
    · rename_i present
      obtain ⟨found, sign?, done⟩ := Option.map_eq_some_iff.mp read
      obtain ⟨gap, isGap, behind⟩ := afterAssign?_eq_some_iff.mp sign?
      cases done
      simp only [Bool.or_eq_true, List.isEmpty_iff, not_or] at present
      have whole := eq_of_frontChain_ne_nil present.2
      have chain : ∀ c ∈ text.takeWhile isChainChar, isChainChar c = true :=
        fun c member => List.mem_takeWhile_imp member
      refine ⟨present.2, fun c member => chain c ?_, ⟨present.1, fun c member => ?_⟩,
        gap, isGap, ?_⟩
      · rw [whole]
        exact List.mem_append_left _ member
      · have inChain := chain c (by rw [whole]; exact List.mem_append_right _ (by simp [member]))
        rw [lastName, List.mem_reverse] at member
        have notDot := List.mem_takeWhile_imp member
        simpa [isChainChar, bne_iff_ne.mp notDot] using inChain
      · rw [Target.text, ← whole, ← behind, List.takeWhile_append_dropWhile]
  · rintro ⟨someReceiver, chain, named, gap, isGap, rfl⟩
    have all : ∀ c ∈ receiver ++ '.' :: name, isChainChar c = true := by
      intro c member
      rcases List.mem_append.mp member with inReceiver | inRest
      · exact chain c inReceiver
      · rcases List.mem_cons.mp inRest with rfl | inName
        · decide
        · exact Bool.or_eq_true_iff.mpr (Or.inl (named.2 c inName))
    have stops : ∃ c rest, gap ++ '=' :: value = c :: rest ∧ isChainChar c = false := by
      cases gap with
      | nil => exact ⟨'=', value, rfl, by decide⟩
      | cons c more =>
        refine ⟨c, _, rfl, ?_⟩
        have blank := isGap c List.mem_cons_self
        simp only [Text.isInlineBlank, Bool.or_eq_true, beq_iff_eq] at blank
        rcases blank with rfl | rfl <;> decide
    obtain ⟨c, rest, opens, stops⟩ := stops
    have taken : (receiver ++ '.' :: name ++ (gap ++ '=' :: value)).takeWhile isChainChar =
        receiver ++ '.' :: name := by
      rw [List.takeWhile_append_of_pos all, opens, List.takeWhile_cons_of_neg (by simp [stops]),
        List.append_nil]
    have dropped : (receiver ++ '.' :: name ++ (gap ++ '=' :: value)).dropWhile isChainChar =
        gap ++ '=' :: value := by
      rw [List.dropWhile_append_of_pos all, opens, List.dropWhile_cons_of_neg (by simp [stops])]
    obtain ⟨front, last⟩ := @parts_of_chain receiver name named
    rw [Target.text, taken, dropped]
    simp [front, last, someReceiver, named.1, afterAssign?_append isGap]


/-! ### Forms of a target -/

namespace Target

/-- The form of a line that assigns a function to the target. -/
def functionForm : Target → LineForm
  | .declared _ _ name => .functionExpression (String.ofList name)
  | .prototypeMember owner name => .prototypeMethod (String.ofList owner) (String.ofList name)
  | .member receiver name => .method (String.ofList receiver) (String.ofList name)

/-- The form of a line that assigns something else to the target. A longer chain has none. -/
def valueForm? : Target → Option LineForm
  | .declared _ _ name => some (.declaration (String.ofList name))
  | .prototypeMember owner name =>
    some (.prototypeProperty (String.ofList owner) (String.ofList name))
  | .member receiver name =>
    if receiver.contains '.' then none
    else some (.property (String.ofList receiver) (String.ofList name))

/-- The form of a line that assigns a value to the target. -/
def form? (target : Target) (value : List Char) : Option LineForm :=
  if opensFunction value then some target.functionForm
  else if opensValue value then target.valueForm?
  else none

end Target

/-- The form of the part of a line that is looked at. -/
def ofText? (text : List Char) : Option LineForm :=
  (functionStatement? text).or <| (functionExpression? text).or <| (prototypeMethod? text).or <|
    (prototypeProperty? text).or <| (method? text).or <| (property? text).or (declaration? text)

theorem read?_eq (line : String) : read? line = ofText? (head line) := rfl

theorem functionStatement?_eq_some_iff {text : List Char} {form : LineForm} :
    functionStatement? text = some form ↔
      ∃ blanks name gap rest, blanks ≠ [] ∧ (∀ c ∈ blanks, Text.isSpace c = true) ∧ IsName name ∧
        (∀ c ∈ gap, Text.isSpace c = true) ∧
        text = functionWord ++ (blanks ++ (name ++ (gap ++ '(' :: rest))) ∧
        form = .functionStatement (String.ofList name) := by
  constructor
  · intro read
    simp only [functionStatement?, Option.bind_eq_bind, Option.bind_eq_some_iff] at read
    obtain ⟨afterWord, word?, behind, blanks?, ⟨name, afterName⟩, name?, found⟩ := read
    obtain rfl := Text.afterStart?_eq_some_iff.mp word?
    obtain ⟨blanks, some, blank, rfl⟩ := of_afterBlanks?_eq_some blanks?
    obtain ⟨named, rfl⟩ := of_name?_eq_some name?
    split at found
    · rename_i rest opened
      cases found
      refine ⟨blanks, name, afterName.takeWhile Text.isSpace, rest, some, blank, named,
        fun c member => List.mem_takeWhile_imp member, ?_, rfl⟩
      rw [← opened, Text.trimStart, List.takeWhile_append_dropWhile]
    · cases found
  · rintro ⟨blanks, name, gap, rest, some, blank, named, isGap, rfl, rfl⟩
    have word? : Text.afterStart? functionWord
        (functionWord ++ (blanks ++ (name ++ (gap ++ '(' :: rest)))) =
          Option.some (blanks ++ (name ++ (gap ++ '(' :: rest))) :=
      Text.afterStart?_eq_some_iff.mpr rfl
    have ends : EndsName (gap ++ '(' :: rest) :=
      endsName_of_blanks isGap (endsName_cons (by decide) rest)
    have opened : Text.trimStart (gap ++ '(' :: rest) = '(' :: rest := by
      rw [Text.trimStart_append_of_blank isGap, Text.trimStart_cons_of_not_blank (by decide)]
    simp only [functionStatement?, Option.bind_eq_bind, word?, Option.bind_some,
      afterBlanks?_append some blank (named.dark _), name?_append named ends, opened]

/-- Behind blanks and whatever has no sign, a sign is no parenthesis. -/
theorem append_sign_ne {gap between : List Char}
    (isGap : ∀ c ∈ gap, Text.isInlineBlank c = true) (noSign : '=' ∉ between)
    (value rest : List Char) : gap ++ '=' :: value ≠ between ++ '(' :: rest := by
  intro same
  rcases List.append_eq_append_iff.mp same with ⟨inner, rfl, opened⟩ | ⟨inner, rfl, opened⟩
  · cases inner with
    | nil => cases opened
    | cons c later =>
      obtain ⟨rfl, -⟩ := List.cons.inj opened
      exact noSign (by simp)
  · cases inner with
    | nil => cases opened
    | cons c later =>
      obtain ⟨rfl, -⟩ := List.cons.inj opened
      exact absurd (isGap '(' (by simp)) (by decide)

/-- In front of a sign nothing opens a list of parameters that does not open it in the text in
front. -/
theorem functionStatement?_append {gap : List Char}
    (isGap : ∀ c ∈ gap, Text.isInlineBlank c = true) (front value : List Char) :
    functionStatement? (front ++ (gap ++ '=' :: value)) = functionStatement? front := by
  refine Option.ext fun form => ?_
  rw [functionStatement?_eq_some_iff, functionStatement?_eq_some_iff]
  constructor
  · rintro ⟨blanks, name, more, rest, some, blank, named, isMore, same, rfl⟩
    have noSign : '=' ∉ functionWord ++ (blanks ++ (name ++ more)) := by
      simp only [List.mem_append, not_or]
      exact ⟨by decide, fun member => absurd (blank _ member) (by decide),
        named.free (by decide), fun member => absurd (isMore _ member) (by decide)⟩
    have parts : front ++ (gap ++ '=' :: value) =
        functionWord ++ (blanks ++ (name ++ more)) ++ '(' :: rest := by
      rw [same]
      simp
    rcases List.append_eq_append_iff.mp parts with ⟨between, whole, signs⟩ | ⟨between, whole, signs⟩
    · rw [whole, List.mem_append, not_or] at noSign
      exact absurd signs (append_sign_ne isGap noSign.2 value rest)
    · cases between with
      | nil => exact absurd signs.symm (append_sign_ne isGap List.not_mem_nil value rest)
      | cons c later =>
        obtain ⟨rfl, -⟩ := List.cons.inj signs
        exact ⟨blanks, name, more, later, some, blank, named, isMore, by rw [whole]; simp, rfl⟩
  · rintro ⟨blanks, name, more, rest, some, blank, named, isMore, rfl, rfl⟩
    exact ⟨blanks, name, more, rest ++ (gap ++ '=' :: value), some, blank, named, isMore,
      by simp, rfl⟩

/-! ### One reading for a line -/

theorem dot_not_mem_of_declared {keyword blanks name : List Char}
    (formed : (Target.declared keyword blanks name).IsWellFormed) :
    '.' ∉ (Target.declared keyword blanks name).text := by
  obtain ⟨isKeyword, -, blank, named⟩ := formed
  have letters : ∀ word ∈ Target.keywords, '.' ∉ word := by decide
  simp only [Target.text, List.mem_append, not_or]
  exact ⟨letters keyword isKeyword, fun member => absurd (blank _ member) (by decide),
    named.free (by decide)⟩

/-- Only one of a declaration and a chain can be read. -/
theorem declared?_of_chainMember? {text receiver name value : List Char}
    (read : chainMember? text = some (receiver, name, value)) : declared? text = none := by
  refine Option.eq_none_iff_forall_ne_some.mpr fun ⟨other, otherValue⟩ otherRead => ?_
  obtain ⟨-, chain, named, assigns⟩ := chainMember?_eq_some_iff.mp read
  obtain ⟨keyword, blanks, formed, otherAssigns⟩ := declared?_sound otherRead
  have free : '=' ∉ receiver ++ ['.'] := by
    rw [List.mem_append, not_or]
    exact ⟨fun inside => absurd (chain _ inside) (by decide), by decide⟩
  have bare : IsBare (Target.member receiver name).text := by
    rw [Target.text, List.append_cons]
    exact isBare_append free named
  have same := (assigns.unique otherAssigns bare (Target.isBare formed)).1
  refine dot_not_mem_of_declared formed ?_
  rw [← same, Target.text]
  simp

theorem chainMember?_of_prototypeMember? {text owner name value : List Char}
    (read : prototypeMember? text = some (owner, name, value)) :
    chainMember? text = some (owner ++ ".prototype".toList, name, value) := by
  obtain ⟨⟨isOwner, isName⟩, assigns⟩ := prototypeMember?_eq_some_iff.mp read
  have letters : ".prototype".toList.all isChainChar = true := by decide
  refine chainMember?_eq_some_iff.mpr ⟨by simp, fun c member => ?_, isName, ?_⟩
  · rcases List.mem_append.mp member with inOwner | inWord
    · exact Bool.or_eq_true_iff.mpr (Or.inl (isOwner.2 c inOwner))
    · exact List.all_eq_true.mp letters c inWord
  · rw [Target.text, List.append_assoc]
    exact assigns

theorem chainMember?_of_plainMember? {text receiver name value : List Char}
    (read : plainMember? text = some (receiver, name, value)) :
    chainMember? text = some (receiver, name, value) := by
  obtain ⟨isReceiver, isName, assigns⟩ := plainMember?_eq_some_iff.mp read
  exact chainMember?_eq_some_iff.mpr ⟨isReceiver.1,
    fun c member => Bool.or_eq_true_iff.mpr (Or.inl (isReceiver.2 c member)), isName, assigns⟩

theorem no_member_of_chainMember? {text : List Char} (noChain : chainMember? text = none) :
    prototypeMember? text = none ∧ plainMember? text = none := by
  constructor
  · refine Option.eq_none_iff_forall_ne_some.mpr fun _ read => ?_
    rw [chainMember?_of_prototypeMember? read] at noChain
    cases noChain
  · refine Option.eq_none_iff_forall_ne_some.mpr fun _ read => ?_
    rw [chainMember?_of_plainMember? read] at noChain
    cases noChain

/-! ### Lines with a target -/

section Targets

variable {target : Target} (formed : target.IsWellFormed) {text value : List Char}
  (assigns : Assigns text target.text value)

include formed assigns

theorem functionStatement?_of_assigns : functionStatement? text = none := by
  obtain ⟨gap, isGap, rfl⟩ := assigns
  rw [functionStatement?_append isGap]
  refine Option.eq_none_iff_forall_ne_some.mpr fun form read => ?_
  obtain ⟨blanks, name, more, rest, -, -, -, -, whole, -⟩ :=
    functionStatement?_eq_some_iff.mp read
  refine Target.free formed (show isNameChar '(' = false by decide) (by decide) (by decide) ?_
  rw [whole]
  simp

/-- What stands in front of the sign and what stands behind it decide together how a line is
read. -/
theorem ofText?_of_assigns : ofText? text = target.form? value := by
  have noStatement := functionStatement?_of_assigns formed assigns
  cases target with
  | declared keyword blanks name =>
    have declared? := declared?_of_assigns formed assigns
    have noChain : chainMember? text = none :=
      Option.eq_none_iff_forall_ne_some.mpr fun _ read => by
        rw [declared?_of_chainMember? read] at declared?
        cases declared?
    obtain ⟨noPrototype, noPlain⟩ := no_member_of_chainMember? noChain
    simp only [ofText?, noStatement, functionExpression?, declared?, prototypeMethod?,
      prototypeProperty?, noPrototype, method?, noChain, property?, noPlain, declaration?,
      Option.bind_eq_bind, Option.bind_some, Option.bind_none, Option.none_or, Target.form?]
    split <;> rfl
  | prototypeMember owner name =>
    have prototype? := prototypeMember?_eq_some_iff.mpr ⟨formed, assigns⟩
    have chain? := chainMember?_of_prototypeMember? prototype?
    have noDeclared := declared?_of_chainMember? chain?
    have noPlain : plainMember? text = none :=
      Option.eq_none_iff_forall_ne_some.mpr fun ⟨receiver, other, _⟩ read => by
        have same := (chainMember?_of_plainMember? read).symm.trans chain?
        have isReceiver := (plainMember?_eq_some_iff.mp read).1
        simp only [Option.some.injEq, Prod.mk.injEq] at same
        rw [same.1] at isReceiver
        exact isReceiver.free (show isNameChar '.' = false by decide) (by simp)
    simp only [ofText?, noStatement, functionExpression?, noDeclared, prototypeMethod?,
      prototypeProperty?, prototype?, method?, chain?, property?, noPlain, declaration?,
      Option.bind_eq_bind, Option.bind_some, Option.bind_none, Option.none_or, Target.form?]
    by_cases opens : opensFunction value = true
    · simp [opens, Target.functionForm]
    · simp [opens, Target.valueForm?]
  | member receiver name =>
    obtain ⟨some, chain, notPrototype, named⟩ := formed
    have chain? : chainMember? text = Option.some (receiver, name, value) :=
      chainMember?_eq_some_iff.mpr ⟨some, chain, named, assigns⟩
    have noDeclared := declared?_of_chainMember? chain?
    have noPrototype : prototypeMember? text = none :=
      Option.eq_none_iff_forall_ne_some.mpr fun ⟨owner, other, _⟩ read => by
        have same := (chainMember?_of_prototypeMember? read).symm.trans chain?
        simp only [Option.some.injEq, Prod.mk.injEq] at same
        exact notPrototype owner (prototypeMember?_eq_some_iff.mp read).1.1 same.1.symm
    have plain? : plainMember? text =
        if receiver.contains '.' then none else Option.some (receiver, name, value) := by
      split
      · rename_i dotted
        refine Option.eq_none_iff_forall_ne_some.mpr fun ⟨other, otherName, _⟩ read => ?_
        have same := (chainMember?_of_plainMember? read).symm.trans chain?
        have isReceiver := (plainMember?_eq_some_iff.mp read).1
        simp only [Option.some.injEq, Prod.mk.injEq] at same
        rw [same.1] at isReceiver
        exact isReceiver.free (show isNameChar '.' = false by decide) (by simpa using dotted)
      · rename_i dotless
        have isReceiver : IsName receiver := ⟨some, fun c member => by
          refine (isChainChar_iff.mp (chain c member)).resolve_right ?_
          rintro rfl
          exact dotless (by simpa using member)⟩
        exact plainMember?_eq_some_iff.mpr ⟨isReceiver, named, assigns⟩
    simp only [ofText?, noStatement, functionExpression?, noDeclared, prototypeMethod?,
      prototypeProperty?, noPrototype, method?, chain?, property?, plain?, declaration?,
      Option.bind_eq_bind, Option.bind_some, Option.bind_none, Option.none_or, Target.form?]
    by_cases opens : opensFunction value = true
    · simp [opens, Target.functionForm]
    · by_cases dotted : '.' ∈ receiver <;> simp [opens, Target.valueForm?, dotted]

end Targets

/-- Every line that has a form defines a function by a statement or assigns to a target. -/
theorem statement_or_target_of_ofText? {text : List Char} {form : LineForm}
    (read : ofText? text = some form) :
    functionStatement? text = some form ∨
      ∃ target : Target, target.IsWellFormed ∧ ∃ value, Assigns text target.text value := by
  by_cases chain? : ∃ found, chainMember? text = some found
  · obtain ⟨⟨receiver, name, value⟩, chain?⟩ := chain?
    obtain ⟨some, chain, named, assigns⟩ := chainMember?_eq_some_iff.mp chain?
    by_cases prototype : ∃ owner, IsName owner ∧ receiver = owner ++ ".prototype".toList
    · obtain ⟨owner, isOwner, rfl⟩ := prototype
      refine Or.inr ⟨.prototypeMember owner name, ⟨isOwner, named⟩, value, ?_⟩
      rw [Target.text, List.append_assoc] at assigns
      exact assigns
    · refine Or.inr ⟨.member receiver name, ⟨some, chain, fun owner isOwner same => ?_, named⟩,
        value, assigns⟩
      exact prototype ⟨owner, isOwner, same⟩
  · by_cases declared? : ∃ found, LineForm.declared? text = some found
    · obtain ⟨⟨name, value⟩, declared?⟩ := declared?
      obtain ⟨keyword, blanks, formed, assigns⟩ := declared?_sound declared?
      exact Or.inr ⟨_, formed, value, assigns⟩
    · left
      have noChain : chainMember? text = none := by
        simpa [Option.eq_none_iff_forall_ne_some] using chain?
      have noDeclared : LineForm.declared? text = none := by
        simpa [Option.eq_none_iff_forall_ne_some] using declared?
      obtain ⟨noPrototype, noPlain⟩ := no_member_of_chainMember? noChain
      simpa [ofText?, functionExpression?, prototypeMethod?, prototypeProperty?, method?,
        property?, declaration?, noChain, noDeclared, noPrototype, noPlain] using read

end LineForm

end DocEntities
