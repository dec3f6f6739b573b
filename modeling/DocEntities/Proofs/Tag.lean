/-
This file says what a tag can be and that it is read back from the one way of writing it. Every
segment of a comment has a tag, unless it is blank or opens with a brace: even an at sign that no
name follows is a name. Whatever was read is well formed, and a well-formed tag has a written
form, its braces always there: the first opening brace ends the name and the first closing one
ends the types, so neither a brace in a type nor one in the description is mistaken.
-/

import DocEntities.Comment.Tag
import DocEntities.Proofs.Text

namespace DocEntities.Tag

/-- A tag as it is written behind its at sign. Missing types leave the braces empty. -/
def text (tag : Tag) : List Char :=
  tag.name.toList ++ ' ' :: '\x7b' ::
    (Text.joinWith ['|'] ((tag.types.getD []).map String.toList) ++
      '\x7d' :: ' ' :: (tag.description.getD "").toList)

/-- A tag that can be read from some segment of a comment. -/
structure IsWellFormed (tag : Tag) : Prop where
  name_nonempty : tag.name ≠ ""
  name_chars : ∀ c ∈ tag.name.toList, Text.isSpace c = false ∧ c ≠ '\x7b'
  types_nonempty : tag.types ≠ some []
  types : ∀ types, tag.types = some types → ∀ type ∈ types,
    type ≠ "" ∧ Text.trim type = type ∧ ∀ c ∈ type.toList, c ≠ '|' ∧ c ≠ ',' ∧ c ≠ '/' ∧ c ≠ '\x7d'
  description : ∀ text, tag.description = some text → text ≠ "" ∧ Text.trim text = text

/-! ### Written tags -/

/-- A written tag without the blank that a missing description leaves behind it. -/
def core (tag : Tag) : List Char :=
  tag.name.toList ++ ' ' :: '\x7b' ::
    (Text.joinWith ['|'] ((tag.types.getD []).map String.toList) ++
      '\x7d' :: (tag.description.elim [] (fun text => ' ' :: text.toList)))

theorem text_eq_core (tag : Tag) :
    ∃ blanks, (∀ c ∈ blanks, Text.isSpace c = true) ∧ tag.text = tag.core ++ blanks := by
  unfold text core
  cases tag.description with
  | none => exact ⟨[' '], by simp [Text.isSpace], by simp⟩
  | some text => exact ⟨[], by simp, by simp⟩

/-- The types of a list without blank items are the items, the blanks around them cut. -/
theorem splitTypes?_of_pieces {list : List Char} {types : List String} (filled : types ≠ [])
    (cut : (Text.splitWhere isTypeSeparator list).map Text.trimmed = types.map String.toList)
    (nonempty : ∀ type ∈ types, type ≠ "") : splitTypes? list = some types := by
  have kept : (types.map String.toList).filter (fun piece => !piece.isEmpty) =
      types.map String.toList := by
    refine List.filter_eq_self.mpr fun piece member => ?_
    obtain ⟨type, isType, rfl⟩ := List.mem_map.mp member
    simpa using nonempty type isType
  have back : (types.map String.toList).map String.ofList = types := by
    rw [List.map_map, show String.ofList ∘ String.toList = id from
      funext fun _ => String.ofList_toList, List.map_id]
  unfold splitTypes?
  simp only [cut, kept, back]
  exact if_neg (by simpa using filled)

theorem braced?_append {inside : List Char} (open? : ∀ c ∈ inside, c ≠ '\x7d')
    (after : List Char) :
    braced? ('\x7b' :: (inside ++ '\x7d' :: after)) = some (inside, after) := by
  have inBraces : ∀ c ∈ inside, (c != '\x7d') = true := by simpa using open?
  have behind : (inside ++ '\x7d' :: after).dropWhile (· != '\x7d') = '\x7d' :: after := by
    rw [List.dropWhile_append_of_pos inBraces]
    rfl
  have taken : (inside ++ '\x7d' :: after).takeWhile (· != '\x7d') = inside := by
    rw [List.takeWhile_append_of_pos inBraces]
    exact List.append_nil inside
  unfold braced?
  simp only [behind, taken]

theorem dropAtSign_of_ne {c : Char} (notSign : c ≠ '@') (rest : List Char) :
    dropAtSign (c :: rest) = c :: rest := by
  unfold dropAtSign
  split
  · rename_i first
    exact absurd (List.cons.inj first).1 notSign
  · rfl

theorem dropAtSign_suffix (text : List Char) : dropAtSign text <:+ text := by
  fun_cases dropAtSign text with
  | case1 c rest named => exact List.suffix_cons _ _
  | case2 c rest unnamed => exact List.suffix_rfl
  | case3 text other => exact List.suffix_rfl

theorem braced?_of_ne {c : Char} (notBrace : c ≠ '\x7b') (rest : List Char) :
    braced? (c :: rest) = none := by
  unfold braced?
  split
  · rename_i opens
    exact absurd (List.cons.inj opens).1 notBrace
  · rfl

/-- A segment is read in its three parts: the name up to a blank or a brace, the types in braces
behind it, and the rest. -/
theorem read?_of_parts {segment : List Char} {name inside after : List Char} (named : name ≠ [])
    (chars : ∀ c ∈ name, isNameChar c = true) (noBrace : ∀ c ∈ inside, c ≠ '\x7d')
    (parts : dropAtSign (Text.trimmed segment) =
      name ++ ' ' :: '\x7b' :: (inside ++ '\x7d' :: after)) :
    read? (String.ofList segment) =
      some ⟨String.ofList name, splitTypes? inside, Text.nonEmpty? (Text.trimmed after)⟩ := by
  obtain ⟨c, rest, rfl⟩ := List.exists_cons_of_ne_nil named
  have taken : ((c :: rest) ++ ' ' :: '\x7b' :: (inside ++ '\x7d' :: after)).takeWhile isNameChar =
      c :: rest := by
    rw [List.takeWhile_append_of_pos chars]
    exact List.append_nil _
  have behindName : Text.trimStart (((c :: rest) ++ ' ' :: '\x7b' ::
      (inside ++ '\x7d' :: after)).dropWhile isNameChar) =
        '\x7b' :: (inside ++ '\x7d' :: after) := by
    rw [List.dropWhile_append_of_pos chars]
    rfl
  unfold read?
  simp only [String.toList_ofList, parts, taken, behindName, braced?_append noBrace]

namespace IsWellFormed

variable {tag : Tag}

theorem isNameChar_of_mem (wellFormed : tag.IsWellFormed) {c : Char}
    (member : c ∈ tag.name.toList) : isNameChar c = true := by
  simp [isNameChar, wellFormed.name_chars c member]

theorem name_eq_cons (wellFormed : tag.IsWellFormed) :
    ∃ c rest, tag.name.toList = c :: rest ∧ Text.isSpace c = false := by
  obtain ⟨c, rest, name⟩ := List.exists_cons_of_ne_nil
    (mt String.toList_eq_nil_iff.mp wellFormed.name_nonempty)
  exact ⟨c, rest, name, (wellFormed.name_chars c (name ▸ List.mem_cons_self)).1⟩

theorem description_eq_cons (wellFormed : tag.IsWellFormed) {text : String}
    (described : tag.description = some text) :
    ∃ c rest, text.toList = c :: rest ∧ Text.isSpace c = false ∧
      Text.trimEnd text.toList = text.toList := by
  obtain ⟨nonempty, same⟩ := wellFormed.description text described
  obtain ⟨c, rest, cons, dark⟩ := Text.exists_cons_of_trim nonempty same
  exact ⟨c, rest, cons, dark, Text.trimEnd_of_trimmed (Text.trimmed_toList_of_trim same)⟩

theorem core_eq_cons (wellFormed : tag.IsWellFormed) :
    ∃ c rest, tag.core = c :: rest ∧ Text.isSpace c = false := by
  obtain ⟨c, rest, name, dark⟩ := wellFormed.name_eq_cons
  exact ⟨c, _, by unfold core; rw [name]; rfl, dark⟩

theorem trimEnd_core (wellFormed : tag.IsWellFormed) : Text.trimEnd tag.core = tag.core := by
  have brace : Text.isSpace '\x7d' = false := by decide
  unfold core
  rw [← List.cons_append, ← List.cons_append, ← List.append_assoc,
    Text.trimEnd_append_cons brace]
  congr 1
  cases described : tag.description with
  | none => rfl
  | some text =>
    obtain ⟨c, rest, cons, dark, same⟩ := wellFormed.description_eq_cons described
    show Text.trimEnd (['\x7d', ' '] ++ text.toList) = _
    rw [cons, Text.trimEnd_append_cons dark, ← cons, same]
    rfl

theorem trimmed_core (wellFormed : tag.IsWellFormed) : Text.trimmed tag.core = tag.core := by
  obtain ⟨c, rest, cons, dark⟩ := wellFormed.core_eq_cons
  rw [cons, Text.trimmed_cons dark, ← cons, wellFormed.trimEnd_core]

theorem trimmed_text (wellFormed : tag.IsWellFormed) : Text.trimmed tag.text = tag.core := by
  obtain ⟨blanks, blank, text⟩ := text_eq_core tag
  obtain ⟨c, more, cons, dark⟩ := wellFormed.core_eq_cons
  rw [text, cons, List.cons_append, Text.trimmed_cons dark, ← List.cons_append,
    Text.trimEnd_append_of_blank blank, ← cons, wellFormed.trimEnd_core]

/-- The types of a written type list are the types. -/
theorem splitTypes?_joinWith (wellFormed : tag.IsWellFormed) :
    splitTypes? (Text.joinWith ['|'] ((tag.types.getD []).map String.toList)) = tag.types := by
  cases typed : tag.types with
  | none => rfl
  | some types =>
    have nonempty : types ≠ [] := fun empty => wellFormed.types_nonempty (typed.trans (empty ▸ rfl))
    refine splitTypes?_of_pieces nonempty ?_ fun type isType =>
      (wellFormed.types types typed type isType).1
    have cut : Text.splitWhere isTypeSeparator (Text.joinWith ['|'] (types.map String.toList)) =
        types.map String.toList := by
      refine Text.splitWhere_joinWith rfl (by simpa using nonempty) fun piece member c inside => ?_
      obtain ⟨type, isType, rfl⟩ := List.mem_map.mp member
      obtain ⟨-, -, plain⟩ := wellFormed.types types typed type isType
      obtain ⟨notBar, notComma, notSlash, -⟩ := plain c inside
      simp [isTypeSeparator, notBar, notComma, notSlash]
    rw [Option.getD_some, cut, List.map_map]
    refine List.map_congr_left fun type isType => ?_
    exact Text.trimmed_toList_of_trim (wellFormed.types types typed type isType).2.1

theorem not_closing_of_mem_joinWith (wellFormed : tag.IsWellFormed) :
    ∀ c ∈ Text.joinWith ['|'] ((tag.types.getD []).map String.toList), c ≠ '\x7d' := by
  intro c member
  rcases Text.mem_joinWith member with bar | ⟨piece, isPiece, inPiece⟩
  · rw [List.mem_singleton.mp bar]
    decide
  · obtain ⟨type, isType, rfl⟩ := List.mem_map.mp isPiece
    cases typed : tag.types with
    | none => rw [typed] at isType; cases isType
    | some types =>
      rw [typed] at isType
      exact ((wellFormed.types types typed type isType).2.2 c inPiece).2.2.2

theorem nonEmpty?_description (wellFormed : tag.IsWellFormed) :
    Text.nonEmpty? (Text.trimmed (tag.description.elim [] (fun text => ' ' :: text.toList))) =
      tag.description := by
  cases described : tag.description with
  | none => rfl
  | some text =>
    obtain ⟨c, rest, cons, dark, same⟩ := wellFormed.description_eq_cons described
    have blank : ∀ c ∈ [' '], Text.isSpace c = true := List.forall_mem_singleton.mpr rfl
    have trimmed : Text.trimmed ([' '] ++ text.toList) = text.toList := by
      rw [Text.trimmed_blank_append blank, cons, Text.trimmed_cons dark, ← cons, same]
    have nonempty : ¬text.toList.isEmpty = true := by rw [cons]; exact Bool.false_ne_true
    show Text.nonEmpty? (Text.trimmed ([' '] ++ text.toList)) = some text
    rw [trimmed, Text.nonEmpty?, if_neg nonempty, String.ofList_toList]

/-- A segment that is a written tag, but for blanks around it and its at sign, is read as that
tag. -/
theorem read?_of_core (wellFormed : tag.IsWellFormed) {segment : List Char}
    (same : dropAtSign (Text.trimmed segment) = tag.core) :
    read? (String.ofList segment) = some tag := by
  rw [read?_of_parts (mt String.toList_eq_nil_iff.mp wellFormed.name_nonempty)
    (fun c member => wellFormed.isNameChar_of_mem member) wellFormed.not_closing_of_mem_joinWith
    same, wellFormed.splitTypes?_joinWith, wellFormed.nonEmpty?_description, String.ofList_toList]

/-- A well-formed tag is read back from its written form. -/
theorem read?_written (wellFormed : tag.IsWellFormed) :
    read? (String.ofList ('@' :: tag.text)) = some tag := by
  have dark : Text.isSpace '@' = false := by decide
  obtain ⟨blanks, blank, text⟩ := text_eq_core tag
  obtain ⟨c, more, core, -⟩ := wellFormed.core_eq_cons
  obtain ⟨d, rest, name, -⟩ := wellFormed.name_eq_cons
  have opens : isNameChar c = true := by
    unfold Tag.core at core
    rw [name] at core
    exact (List.cons.inj core).1 ▸ wellFormed.isNameChar_of_mem (name ▸ List.mem_cons_self)
  have trimmed : Text.trimmed ('@' :: tag.text) = '@' :: tag.core := by
    rw [Text.trimmed_cons dark, Text.trimEnd_cons_of_not_blank dark, text,
      Text.trimEnd_append_of_blank blank, wellFormed.trimEnd_core]
  refine wellFormed.read?_of_core ?_
  rw [trimmed, core, dropAtSign, if_pos opens]

end IsWellFormed

/-! ### Tags that are read -/

/-- What stands in braces has no closing brace in it. -/
theorem not_closing_of_braced? {text inside after : List Char}
    (braced : braced? text = some (inside, after)) : ∀ c ∈ inside, c ≠ '\x7d' := by
  unfold braced? at braced
  split at braced
  · split at braced
    · cases braced
    · obtain ⟨rfl, rfl⟩ := Prod.mk.inj (Option.some.inj braced)
      intro c member
      simpa using List.mem_takeWhile_imp member
  · cases braced

theorem suffix_of_braced? {text inside after : List Char}
    (braced : braced? text = some (inside, after)) : after <:+ text := by
  unfold braced? at braced
  split at braced
  · rename_i rest
    split at braced
    · cases braced
    · rename_i c behind closed
      obtain ⟨rfl, rfl⟩ := Prod.mk.inj (Option.some.inj braced)
      have inRest : c :: behind <:+ rest := closed ▸ List.dropWhile_suffix _
      exact ((List.suffix_cons c behind).trans inRest).trans (List.suffix_cons _ rest)
  · cases braced

/-- A segment has no tag if no name stands in front. -/
theorem read?_eq_none_iff_unnamed (segment : String) :
    read? segment = none ↔
      (dropAtSign (Text.trimmed segment.toList)).takeWhile isNameChar = [] := by
  unfold read?
  simp only
  split
  · rename_i unnamed
    exact iff_of_true rfl unnamed
  · rename_i named
    refine iff_of_false ?_ named
    split <;> nofun

/-- What reading a tag comes to, with and without types in braces. -/
theorem exists_of_read? {segment : String} {tag : Tag} (read : read? segment = some tag) :
    ∃ rest, rest <:+ (dropAtSign (Text.trimmed segment.toList)).dropWhile isNameChar ∧
      tag.name =
        String.ofList ((dropAtSign (Text.trimmed segment.toList)).takeWhile isNameChar) ∧
      tag.description = Text.nonEmpty? (Text.trimmed rest) ∧
      (tag.types = none ∨ ∃ inside, (∀ c ∈ inside, c ≠ '\x7d') ∧ tag.types = splitTypes? inside) := by
  unfold read? at read
  simp only at read
  split at read
  · cases read
  · have blanks : ∀ text, Text.trimStart text <:+ text := fun _ => List.dropWhile_suffix _
    split at read
    · rename_i inside after braced
      obtain ⟨name, types, description⟩ := (mk.injEq ..).mp (Option.some.inj read)
      exact ⟨after, (suffix_of_braced? braced).trans (blanks _), name.symm, description.symm,
        Or.inr ⟨inside, not_closing_of_braced? braced, types.symm⟩⟩
    · obtain ⟨name, types, description⟩ := (mk.injEq ..).mp (Option.some.inj read)
      exact ⟨_, blanks _, name.symm, description.symm, Or.inl types.symm⟩

/-- The name of a tag is what stands in front of the first blank or brace. -/
theorem name_of_read? {segment : String} {tag : Tag} (read : read? segment = some tag) :
    tag.name.toList = (dropAtSign (Text.trimmed segment.toList)).takeWhile isNameChar := by
  obtain ⟨-, -, named, -⟩ := exists_of_read? read
  rw [named, String.toList_ofList]

theorem splitTypes?_ne_some_nil (list : List Char) : splitTypes? list ≠ some [] := by
  unfold splitTypes?
  simp only
  split
  · nofun
  · rename_i nonempty
    intro empty
    exact nonempty (List.isEmpty_iff.mpr (Option.some.inj empty))

/-- The types of a list are its items without the blanks around them. -/
theorem of_mem_splitTypes? {list : List Char} {types : List String} {type : String}
    (split : splitTypes? list = some types) (member : type ∈ types) :
    ∃ piece ∈ Text.splitWhere isTypeSeparator list, type = String.ofList (Text.trimmed piece) ∧
      Text.trimmed piece ≠ [] := by
  unfold splitTypes? at split
  simp only at split
  split at split
  · cases split
  · obtain rfl := Option.some.inj split
    obtain ⟨trimmed, kept, rfl⟩ := List.mem_map.mp member
    obtain ⟨isPiece, nonempty⟩ := List.mem_filter.mp kept
    obtain ⟨piece, cut, rfl⟩ := List.mem_map.mp isPiece
    exact ⟨piece, cut, rfl, by simpa using nonempty⟩

/-- Whatever tag is read is well formed. -/
theorem isWellFormed_of_read? {segment : String} {tag : Tag} (read : read? segment = some tag) :
    tag.IsWellFormed := by
  obtain ⟨rest, -, -, described, typed⟩ := exists_of_read? read
  have named := name_of_read? read
  refine ⟨?_, ?_, ?_, ?_, ?_⟩
  · intro unnamed
    rw [unnamed, String.toList_empty] at named
    have absent : read? segment = none := (read?_eq_none_iff_unnamed segment).mpr named.symm
    exact Option.some_ne_none tag (read.symm.trans absent)
  · intro c member
    rw [named] at member
    simpa [isNameChar] using List.mem_takeWhile_imp member
  · rcases typed with untyped | ⟨inside, -, typed⟩
    · rw [untyped]
      nofun
    · rw [typed]
      exact splitTypes?_ne_some_nil inside
  · intro types isTypes type member
    rcases typed with untyped | ⟨inside, noBrace, typed⟩
    · cases untyped.symm.trans isTypes
    · obtain ⟨piece, cut, rfl, nonempty⟩ := of_mem_splitTypes? (typed.symm.trans isTypes) member
      refine ⟨mt String.ofList_eq_empty_iff.mp nonempty, Text.trim_ofList_trimmed piece, ?_⟩
      intro c inside
      rw [String.toList_ofList] at inside
      have inPiece := Text.mem_of_mem_trimmed inside
      have plain := Text.not_separates_of_mem_splitWhere cut c inPiece
      have closes := noBrace c (Text.mem_of_mem_splitWhere cut inPiece)
      simp only [isTypeSeparator, Bool.or_eq_false_iff, beq_eq_false_iff_ne] at plain
      exact ⟨plain.1.1, plain.1.2, plain.2, closes⟩
  · intro text isText
    rw [described, Text.nonEmpty?] at isText
    split at isText
    · cases isText
    · rename_i nonempty
      obtain rfl := Option.some.inj isText
      refine ⟨mt String.ofList_eq_empty_iff.mp ?_, Text.trim_ofList_trimmed rest⟩
      simpa using nonempty

/-- Only a blank segment and one that opens with a brace have no tag. -/
theorem read?_eq_none_iff (segment : String) :
    read? segment = none ↔
      Text.trim segment = "" ∨ (Text.trim segment).toList.head? = some '\x7b' := by
  rw [read?_eq_none_iff_unnamed, Text.trim, String.toList_ofList, String.ofList_eq_empty_iff]
  have again : Text.trimmed (Text.trimmed segment.toList) = Text.trimmed segment.toList :=
    Text.trimmed_trimmed segment.toList
  generalize Text.trimmed segment.toList = trimmed at again ⊢
  fun_cases dropAtSign trimmed with
  | case1 c rest opens => simp [opens]
  | case2 c rest closed => simp [show isNameChar '@' = true from rfl]
  | case3 =>
    cases trimmed with
    | nil => simp
    | cons c rest => simp [isNameChar, Text.not_blank_of_trimmed_cons again]

/-- A segment has no tag only if it is blank or opens with a brace; any other has a well-formed
tag, which is read back from the way it is written. -/
theorem reading_is_stable (segment : String) :
    (read? segment = none ↔
      Text.trim segment = "" ∨ (Text.trim segment).toList.head? = some '\x7b') ∧
      ∀ tag, read? segment = some tag →
        tag.IsWellFormed ∧ read? (String.ofList ('@' :: tag.text)) = some tag := by
  refine ⟨read?_eq_none_iff segment, fun tag read => ?_⟩
  have wellFormed : tag.IsWellFormed := isWellFormed_of_read? read
  exact ⟨wellFormed, wellFormed.read?_written⟩

/-- An at sign in front of a brace is a name; a brace may open a type and the description. -/
theorem reading_is_stable_loneSign :
    let tag : Tag := ⟨"@", some ["A", "\x7bB"], some "\x7bx\n y"⟩
    read? " @\x7bA |, \x7bB / \x7d\n\x7bx\n y " = some tag ∧
      tag.IsWellFormed ∧ read? (String.ofList ('@' :: tag.text)) = some tag := by
  intro tag
  have read : read? " @\x7bA |, \x7bB / \x7d\n\x7bx\n y " = some tag := by decide +kernel
  have stable := (reading_is_stable " @\x7bA |, \x7bB / \x7d\n\x7bx\n y ").2 tag read
  exact ⟨read, stable⟩

end DocEntities.Tag
