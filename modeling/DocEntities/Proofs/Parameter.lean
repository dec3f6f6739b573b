/-
This file proves that all ways of writing a parameter come to the same parameter. Its types stand
in braces, apart by any of the three separators and any blanks; then come the name and the words
of the description, apart by any blanks. That a parameter is optional can be told in two places,
by a mark behind a type or by brackets around the name, with or without a default value. Each
place takes off its own marks and no other, so only the flag tells the ways of writing apart.
-/

import DocEntities.Proofs.Tag
import Mathlib.Data.Bool.AllAny

namespace DocEntities

/-! ### Writing -/

/-- A type as it stands in a list of types. -/
structure TypeSpelling where
  type : String
  /-- What says behind the type that the parameter is optional. -/
  mark : Option Char := none
  before : List Char := []
  after : List Char := []
  /-- What parts the type from the next one. -/
  separator : Char := '|'

namespace TypeSpelling

/-- The type with its mark. -/
def marked (spelling : TypeSpelling) : List Char :=
  spelling.type.toList ++ spelling.mark.toList

def text (spelling : TypeSpelling) : List Char :=
  spelling.before ++ (spelling.marked ++ spelling.after)

/-- What stands between the braces. -/
def listText : List TypeSpelling → List Char
  | [] => []
  | [last] => last.text
  | spelling :: next :: rest => spelling.text ++ spelling.separator :: listText (next :: rest)

/-- A type that can be told from the others, without a mark of its own at its end. -/
structure IsValid (spelling : TypeSpelling) : Prop where
  nonempty : spelling.type ≠ ""
  trimmed : Text.trim spelling.type = spelling.type
  chars : ∀ c ∈ spelling.type.toList, c ≠ '|' ∧ c ≠ ',' ∧ c ≠ '/' ∧ c ≠ '\x7d'
  unmarked : spelling.type.toList.getLast? ≠ some '?' ∧ spelling.type.toList.getLast? ≠ some '='
  mark : spelling.mark = none ∨ spelling.mark = some '?' ∨ spelling.mark = some '='
  before : ∀ c ∈ spelling.before, Text.isSpace c = true
  after : ∀ c ∈ spelling.after, Text.isSpace c = true
  separator : spelling.separator = '|' ∨ spelling.separator = ',' ∨ spelling.separator = '/'

end TypeSpelling

/-- How the name of a parameter is written. -/
inductive NameSpelling where
  | plain
  | bracketed
  | withDefault (value : List Char)

namespace NameSpelling

/-- A name written in one of the three ways. -/
def text (name : List Char) : NameSpelling → List Char
  | plain => name
  | bracketed => '[' :: (name ++ [']'])
  | withDefault value => '[' :: (name ++ '=' :: (value ++ [']']))

/-- Whether brackets say that the parameter is optional. -/
def isOptional : NameSpelling → Bool
  | plain => false
  | _ => true

end NameSpelling

/-- A word of a description with the blanks in front of it. -/
structure WordSpelling where
  blanks : List Char
  word : List Char

def WordSpelling.text (spelling : WordSpelling) : List Char :=
  spelling.blanks ++ spelling.word

structure WordSpelling.IsValid (spelling : WordSpelling) : Prop where
  apart : spelling.blanks ≠ []
  blanks : ∀ c ∈ spelling.blanks, Text.isSpace c = true
  nonempty : spelling.word ≠ []
  word : ∀ c ∈ spelling.word, Text.isSpace c = false

/-- A parameter with the way its tag is written. -/
structure ParamSpelling where
  types : List TypeSpelling
  name : String
  form : NameSpelling := .plain
  words : List WordSpelling := []

namespace ParamSpelling

/-- The text behind the types. -/
def body (spelling : ParamSpelling) : List Char :=
  spelling.form.text spelling.name.toList ++ spelling.words.flatMap WordSpelling.text

/-- The tag as it is written. -/
def text (spelling : ParamSpelling) : List Char :=
  '@' :: ("param".toList ++ ' ' :: '\x7b' ::
    (TypeSpelling.listText spelling.types ++ '\x7d' :: ' ' :: spelling.body))

/-- The parameter that the tag describes. -/
def param (spelling : ParamSpelling) : Param where
  types := some (spelling.types.map TypeSpelling.type)
  name := some spelling.name
  description :=
    if spelling.words = [] then none
    else some (String.ofList ([' '].intercalate (spelling.words.map WordSpelling.word)))
  optional := spelling.types.any (fun type => type.mark.isSome) || spelling.form.isOptional

/-- A parameter whose parts can be told apart when they are written. -/
structure IsValid (spelling : ParamSpelling) : Prop where
  typed : spelling.types ≠ []
  types : ∀ type ∈ spelling.types, type.IsValid
  named : spelling.name ≠ ""
  name : ∀ c ∈ spelling.name.toList, Text.isSpace c = false ∧ c ≠ '[' ∧ c ≠ ']' ∧ c ≠ '='
  value : ∀ value, spelling.form = .withDefault value → ∀ c ∈ value, Text.isSpace c = false
  words : ∀ word ∈ spelling.words, word.IsValid

end ParamSpelling

/-! ### Types -/

namespace TypeSpelling

variable {spelling : TypeSpelling} {types : List TypeSpelling}

namespace IsValid

theorem isSeparator (valid : spelling.IsValid) :
    Tag.isTypeSeparator spelling.separator = true := by
  rcases valid.separator with bar | comma | slash
  · rw [bar]; rfl
  · rw [comma]; rfl
  · rw [slash]; rfl

theorem type_eq_cons (valid : spelling.IsValid) :
    ∃ c rest, spelling.type.toList = c :: rest ∧ Text.isSpace c = false :=
  Text.exists_cons_of_trim valid.nonempty valid.trimmed

theorem isMark (valid : spelling.IsValid) {c : Char} (marked : spelling.mark = some c) :
    c = '?' ∨ c = '=' := by
  simpa [marked] using valid.mark

/-- Neither the type, its mark nor the blanks around it end the type or the list. -/
theorem char_of_mem_text (valid : spelling.IsValid) {c : Char} (member : c ∈ spelling.text) :
    Tag.isTypeSeparator c = false ∧ c ≠ '\x7d' := by
  have blank (isBlank : Text.isSpace c = true) : Tag.isTypeSeparator c = false ∧ c ≠ '\x7d' := by
    refine ⟨?_, ?_⟩
    · by_contra separator
      simp only [Tag.isTypeSeparator, Bool.not_eq_false, Bool.or_eq_true, beq_iff_eq] at separator
      rcases separator with (rfl | rfl) | rfl
      · exact absurd isBlank (by decide)
      · exact absurd isBlank (by decide)
      · exact absurd isBlank (by decide)
    · rintro rfl
      exact absurd isBlank (by decide)
  simp only [text, marked, List.mem_append, Option.mem_toList] at member
  rcases member with before | (inType | inMark) | after
  · exact blank (valid.before c before)
  · obtain ⟨notBar, notComma, notSlash, notBrace⟩ := valid.chars c inType
    exact ⟨by simp [Tag.isTypeSeparator, notBar, notComma, notSlash], notBrace⟩
  · rcases valid.isMark inMark with rfl | rfl
    · decide
    · decide
  · exact blank (valid.after c after)

theorem trimEnd_marked (valid : spelling.IsValid) :
    Text.trimEnd spelling.marked = spelling.marked := by
  unfold marked
  cases marked : spelling.mark with
  | none =>
    rw [Option.toList_none, List.append_nil]
    exact Text.trimEnd_of_trimmed (Text.trimmed_toList_of_trim valid.trimmed)
  | some c =>
    have dark : Text.isSpace c = false := by
      rcases valid.isMark marked with rfl | rfl
      · rfl
      · rfl
    rw [Option.toList_some, Text.trimEnd_append_cons dark,
      Text.trimEnd_of_solid (List.forall_mem_singleton.mpr dark)]

theorem trimmed_text (valid : spelling.IsValid) :
    Text.trimmed spelling.text = spelling.marked := by
  obtain ⟨c, rest, cons, dark⟩ := valid.type_eq_cons
  have opens : spelling.marked = c :: (rest ++ spelling.mark.toList) := by
    rw [marked, cons]
    rfl
  rw [text, Text.trimmed_blank_append valid.before, opens, List.cons_append,
    Text.trimmed_cons dark, ← List.cons_append, Text.trimEnd_append_of_blank valid.after, ← opens,
    valid.trimEnd_marked]

/-- Taking the mark off a type gives the type, and tells whether it was marked. -/
theorem dropOptionalMark_marked (valid : spelling.IsValid) :
    Tag.dropOptionalMark spelling.marked = (spelling.type.toList, spelling.mark.isSome) := by
  unfold marked Tag.dropOptionalMark
  cases marked : spelling.mark with
  | none =>
    obtain ⟨c, rest, cons, -⟩ := valid.type_eq_cons
    have filled : spelling.type.toList ≠ [] := cons ▸ List.cons_ne_nil c rest
    obtain ⟨init, last, concat⟩ := (List.eq_nil_or_concat' _).resolve_left filled
    obtain ⟨notQuestion, notEquals⟩ : last ≠ '?' ∧ last ≠ '=' := by
      simpa [concat] using valid.unmarked
    simp [concat, Tag.isOptionalMark, notQuestion, notEquals]
  | some c =>
    have optional : Tag.isOptionalMark c = true := by
      rcases valid.isMark marked with rfl | rfl
      · rfl
      · rfl
    simp [optional]

end IsValid

theorem splitWhere_listText (filled : types ≠ []) (valid : ∀ type ∈ types, type.IsValid) :
    Text.splitWhere Tag.isTypeSeparator (listText types) = types.map text := by
  fun_induction listText types with
  | case1 => exact absurd rfl filled
  | case2 last =>
    exact Text.splitWhere_of_free fun c member =>
      ((valid last List.mem_cons_self).char_of_mem_text member).1
  | case3 spelling next rest inductionHypothesis =>
    obtain ⟨first, later⟩ := List.forall_mem_cons.mp valid
    have alone : Text.splitWhere Tag.isTypeSeparator spelling.text = [spelling.text] :=
      Text.splitWhere_of_free fun c member => (first.char_of_mem_text member).1
    rw [Text.splitWhere_append_cons first.isSeparator, alone,
      inductionHypothesis (List.cons_ne_nil _ _) later]
    rfl

theorem ne_closing_of_mem_listText (valid : ∀ type ∈ types, type.IsValid) :
    ∀ c ∈ listText types, c ≠ '\x7d' := by
  fun_induction listText types with
  | case1 => nofun
  | case2 last => exact fun c member => ((valid last List.mem_cons_self).char_of_mem_text member).2
  | case3 spelling next rest inductionHypothesis =>
    obtain ⟨first, later⟩ := List.forall_mem_cons.mp valid
    intro c member
    rcases List.mem_append.mp member with here | behind
    · exact (first.char_of_mem_text here).2
    · rcases List.mem_cons.mp behind with rfl | further
      · rintro closing
        exact absurd first.isSeparator (by rw [closing]; decide)
      · exact inductionHypothesis later c further

/-- A list of types is read as the types with their marks. -/
theorem splitTypes?_listText (filled : types ≠ []) (valid : ∀ type ∈ types, type.IsValid) :
    Tag.splitTypes? (listText types) = some (types.map fun type => String.ofList type.marked) := by
  refine Tag.splitTypes?_of_pieces (by simpa using filled) ?_ ?_
  · rw [splitWhere_listText filled valid, List.map_map, List.map_map]
    refine List.map_congr_left fun type member => ?_
    simpa using (valid type member).trimmed_text
  · intro type member
    obtain ⟨spelling, isType, rfl⟩ := List.mem_map.mp member
    obtain ⟨c, rest, cons, -⟩ := (valid spelling isType).type_eq_cons
    simp [marked, cons]

end TypeSpelling

/-! ### Names -/

namespace NameSpelling

variable {name : List Char} {form : NameSpelling}

/-- Taking the brackets and the default value off a name gives the name, and tells whether there
were brackets. -/
theorem dropBrackets_text (nonempty : name ≠ [])
    (chars : ∀ c ∈ name, c ≠ '[' ∧ c ≠ ']' ∧ c ≠ '=') :
    Tag.dropBrackets (form.text name) = (name, form.isOptional) := by
  have kept : name.filter (fun c => c != '[' && c != ']') = name :=
    List.filter_eq_self.mpr fun c member => by simp [chars c member]
  have named : ∀ c ∈ name, (c != '=') = true := fun c member => by simp [chars c member]
  cases form with
  | plain =>
    obtain ⟨c, rest, rfl⟩ := List.exists_cons_of_ne_nil nonempty
    have notBracket : c ≠ '[' := (chars c List.mem_cons_self).1
    simp [text, Tag.dropBrackets, isOptional, notBracket]
  | bracketed =>
    simp [text, Tag.dropBrackets, isOptional, kept, List.takeWhile_eq_self_iff.mpr named]
  | withDefault value =>
    have cut (rest : List Char) : (name ++ '=' :: rest).takeWhile (· != '=') = name := by
      rw [List.takeWhile_append_of_pos named]
      exact List.append_nil name
    simp [text, Tag.dropBrackets, isOptional, kept, cut]

theorem solid_text (solid : ∀ c ∈ name, Text.isSpace c = false)
    (solidValue : ∀ value, form = .withDefault value → ∀ c ∈ value, Text.isSpace c = false) :
    ∀ c ∈ form.text name, Text.isSpace c = false := by
  have opening : Text.isSpace '[' = false := by decide
  have closing : Text.isSpace ']' = false := by decide
  have equals : Text.isSpace '=' = false := by decide
  intro c member
  cases form with
  | plain => exact solid c member
  | bracketed =>
    simp only [text, List.mem_cons, List.mem_append, List.not_mem_nil, or_false] at member
    rcases member with rfl | inName | rfl
    · exact opening
    · exact solid c inName
    · exact closing
  | withDefault value =>
    simp only [text, List.mem_cons, List.mem_append, List.not_mem_nil, or_false] at member
    rcases member with rfl | inName | rfl | inValue | rfl
    · exact opening
    · exact solid c inName
    · exact equals
    · exact solidValue value rfl c inValue
    · exact closing

theorem text_ne_nil (nonempty : name ≠ []) : form.text name ≠ [] := by
  cases form with
  | plain => exact nonempty
  | _ => exact List.cons_ne_nil _ _

end NameSpelling

/-! ### Whole tags -/

/-- The words of a text are the ones that it is written with. -/
theorem WordSpelling.words_append_flatMap {first : List Char} {words : List WordSpelling}
    (nonempty : first ≠ []) (solid : ∀ c ∈ first, Text.isSpace c = false)
    (valid : ∀ word ∈ words, word.IsValid) :
    Text.words (first ++ words.flatMap text) = first :: words.map word := by
  induction words generalizing first with
  | nil => rw [List.flatMap_nil, List.append_nil, Text.words_of_solid nonempty solid, List.map_nil]
  | cons spelling rest inductionHypothesis =>
    obtain ⟨here, later⟩ := List.forall_mem_cons.mp valid
    obtain ⟨c, blanks, cons⟩ := List.exists_cons_of_ne_nil here.apart
    obtain ⟨blank, moreBlank⟩ := List.forall_mem_cons.mp (cons ▸ here.blanks)
    rw [List.flatMap_cons, text, cons, List.cons_append, List.cons_append,
      Text.words_append_cons blank, Text.words_of_solid nonempty solid, List.append_assoc,
      Text.words_blank_append moreBlank, inductionHypothesis here.nonempty here.word later,
      List.map_cons, List.singleton_append]

namespace ParamSpelling.IsValid

variable {spelling : ParamSpelling}

theorem name_ne_nil (valid : spelling.IsValid) : spelling.name.toList ≠ [] :=
  mt String.toList_eq_nil_iff.mp valid.named

theorem solid_name (valid : spelling.IsValid) :
    ∀ c ∈ spelling.form.text spelling.name.toList, Text.isSpace c = false :=
  NameSpelling.solid_text (fun c member => (valid.name c member).1) valid.value

theorem words_body (valid : spelling.IsValid) :
    Text.words spelling.body =
      spelling.form.text spelling.name.toList :: spelling.words.map WordSpelling.word :=
  WordSpelling.words_append_flatMap (NameSpelling.text_ne_nil valid.name_ne_nil) valid.solid_name
    valid.words

/-- The text behind the types ends with its last word. -/
theorem body_eq_append (valid : spelling.IsValid) :
    ∃ front c rest, spelling.body = front ++ c :: rest ∧
      ∀ d ∈ c :: rest, Text.isSpace d = false := by
  have ends (front : List Char) {last : List Char} (nonempty : last ≠ [])
      (solid : ∀ c ∈ last, Text.isSpace c = false) (body : spelling.body = front ++ last) :
      ∃ front c rest, spelling.body = front ++ c :: rest ∧
        ∀ d ∈ c :: rest, Text.isSpace d = false := by
    obtain ⟨c, rest, rfl⟩ := List.exists_cons_of_ne_nil nonempty
    exact ⟨front, c, rest, body, solid⟩
  rcases List.eq_nil_or_concat' spelling.words with none | ⟨init, last, words⟩
  · refine ends [] (NameSpelling.text_ne_nil valid.name_ne_nil) valid.solid_name ?_
    rw [body, none, List.flatMap_nil, List.append_nil, List.nil_append]
  · have validLast : last.IsValid :=
      valid.words last (words ▸ List.mem_append_right _ (List.mem_singleton_self last))
    refine ends (spelling.form.text spelling.name.toList ++ init.flatMap WordSpelling.text ++
      last.blanks) validLast.nonempty validLast.word ?_
    rw [body, words, List.flatMap_append, List.flatMap_singleton, WordSpelling.text]
    simp only [List.append_assoc]

theorem trimEnd_append_body (valid : spelling.IsValid) (front : List Char) :
    Text.trimEnd (front ++ spelling.body) = front ++ spelling.body := by
  obtain ⟨before, c, rest, body, solid⟩ := valid.body_eq_append
  rw [body, ← List.append_assoc, Text.trimEnd_append_cons (solid c List.mem_cons_self),
    Text.trimEnd_of_solid solid]

theorem trimmed_body (valid : spelling.IsValid) :
    Text.trimmed (' ' :: spelling.body) = spelling.body := by
  have blank : ∀ c ∈ [' '], Text.isSpace c = true := List.forall_mem_singleton.mpr rfl
  have named : spelling.form.text spelling.name.toList ≠ [] :=
    NameSpelling.text_ne_nil valid.name_ne_nil
  obtain ⟨c, rest, cons⟩ := List.exists_cons_of_ne_nil named
  have dark : Text.isSpace c = false := valid.solid_name c (cons ▸ List.mem_cons_self)
  have opens : spelling.body = c :: (rest ++ spelling.words.flatMap WordSpelling.text) := by
    rw [body, cons]
    rfl
  rw [← List.singleton_append, Text.trimmed_blank_append blank, opens, Text.trimmed_cons dark,
    ← opens]
  exact valid.trimEnd_append_body []

theorem trimmed_text (valid : spelling.IsValid) :
    Text.trimmed spelling.text = spelling.text := by
  have dark : Text.isSpace '@' = false := by decide
  have ends : spelling.text = '@' :: ("param".toList ++ ' ' :: '\x7b' ::
      (TypeSpelling.listText spelling.types ++ ['\x7d', ' '])) ++ spelling.body := by
    simp [text]
  rw [text, Text.trimmed_cons dark, ← text, ends]
  exact valid.trimEnd_append_body _

/-- The words behind the name, one blank apart, are the description. -/
theorem nonEmpty?_words (valid : spelling.IsValid) :
    Text.nonEmpty? (Text.joinWith [' '] (spelling.words.map WordSpelling.word)) =
      if spelling.words = [] then none
      else some (String.ofList ([' '].intercalate (spelling.words.map WordSpelling.word))) := by
  cases words : spelling.words with
  | nil => rfl
  | cons first rest =>
    have nonempty : first.word ≠ [] := (valid.words first (words ▸ List.mem_cons_self)).nonempty
    have filled : ¬(Text.joinWith [' '] ((first :: rest).map WordSpelling.word)).isEmpty = true := by
      cases rest with
      | nil => simpa [Text.joinWith] using nonempty
      | cons next more => simp [Text.joinWith, nonempty]
    rw [Text.nonEmpty?, if_neg filled, if_neg (List.cons_ne_nil _ _),
      Text.joinWith_eq_intercalate]

/-- The tag is read as `param` with the written types and all the text behind them. -/
theorem read?_text (valid : spelling.IsValid) :
    Tag.read? (String.ofList spelling.text) =
      some ⟨"param", some (spelling.types.map fun type => String.ofList type.marked),
        some (String.ofList spelling.body)⟩ := by
  have nonempty : ¬spelling.body.isEmpty = true := by
    obtain ⟨before, c, rest, body, -⟩ := valid.body_eq_append
    simp [body]
  have parts : Tag.dropAtSign (Text.trimmed spelling.text) =
      "param".toList ++ ' ' :: '\x7b' ::
        (TypeSpelling.listText spelling.types ++ '\x7d' :: ' ' :: spelling.body) := by
    rw [valid.trimmed_text]
    rfl
  rw [Tag.read?_of_parts (by decide) (List.all_eq_true.mp (by decide))
    (TypeSpelling.ne_closing_of_mem_listText valid.types) parts,
    TypeSpelling.splitTypes?_listText valid.typed valid.types, valid.trimmed_body,
    Text.nonEmpty?, if_neg nonempty, String.ofList_toList]

end ParamSpelling.IsValid

/-- Every way of writing a parameter describes that parameter, optional if a type is marked or the
name stands in brackets. -/
theorem param_of_spelling {spelling : ParamSpelling} (valid : spelling.IsValid) :
    (Tag.read? (String.ofList spelling.text)).bind Tag.param? = some spelling.param := by
  have types : (spelling.types.map fun type => String.ofList type.marked).map
      (fun type => Tag.dropOptionalMark type.toList) =
        spelling.types.map fun type => (type.type.toList, type.mark.isSome) := by
    rw [List.map_map]
    refine List.map_congr_left fun type member => ?_
    simpa using (valid.types type member).dropOptionalMark_marked
  have name : Tag.dropBrackets (spelling.form.text spelling.name.toList) =
      (spelling.name.toList, spelling.form.isOptional) :=
    NameSpelling.dropBrackets_text valid.name_ne_nil fun c member => (valid.name c member).2
  rw [valid.read?_text, Option.bind_some, ParamSpelling.param, ← valid.nonEmpty?_words]
  unfold Tag.param?
  simp [Tag.isBare, types, name, valid.words_body, Function.comp_def]

/-- A mark behind a type, brackets in a default value and words on other lines. -/
theorem param_of_spelling_files :
    let spelling : ParamSpelling :=
      { types :=
          [{ type := "String", after := [' '], separator := ',' },
           { type := "Set of\x7b", mark := some '?', before := ['\n'] }]
        name := "files"
        form := .withDefault ['[', '=', '\x7d', ']']
        words := [⟨[' ', '\n'], ['=', 'x']⟩] }
    spelling.IsValid ∧
      String.ofList spelling.text =
        "@param \x7bString ,\nSet of\x7b?\x7d [files=[=\x7d]] \n=x" ∧
      (Tag.read? (String.ofList spelling.text)).bind Tag.param? = some spelling.param := by
  intro spelling
  have first : TypeSpelling.IsValid { type := "String", after := [' '], separator := ',' } :=
    ⟨by decide, by decide +kernel, List.all_iff_forall_prop.mp (by decide +kernel), by decide,
      by decide, nofun, List.forall_mem_singleton.mpr rfl, by decide⟩
  have second : TypeSpelling.IsValid
      { type := "Set of\x7b", mark := some '?', before := ['\n'] } :=
    ⟨by decide, by decide +kernel, List.all_iff_forall_prop.mp (by decide +kernel), by decide,
      by decide, List.forall_mem_singleton.mpr rfl, nofun, by decide⟩
  have word : WordSpelling.IsValid ⟨[' ', '\n'], ['=', 'x']⟩ :=
    ⟨by decide, List.all_iff_forall_prop.mp (by decide), by decide,
      List.all_iff_forall_prop.mp (by decide)⟩
  have value : ∀ c ∈ ['[', '=', '\x7d', ']'], Text.isSpace c = false :=
    List.all_iff_forall_prop.mp (by decide)
  have valid : spelling.IsValid := by
    refine ⟨by decide, List.forall_mem_cons.mpr ⟨first, List.forall_mem_singleton.mpr second⟩,
      by decide, List.all_iff_forall_prop.mp (by decide +kernel), ?_,
      List.forall_mem_singleton.mpr word⟩
    rintro _ ⟨rfl⟩
    exact value
  exact ⟨valid, by decide +kernel, param_of_spelling valid⟩

end DocEntities
