/-
This file says which tags mean the same wherever they stand in a comment. Behind a description
the at sign of the first tag goes with the line break in front of it, as it does for every later
tag; at the start of a comment it stays and is taken off when the tag is read. That comes to the
same if a name follows the at sign. If none does, the tag at the start takes the at sign itself
for its name, and if it is followed by another at sign and a name, only the tag behind a
description loses both. Either way the start of the comment leaves a remark that no tag behind a
description leaves, unless a later tag of the same name hides the difference.
-/

import DocEntities.Proofs.FieldTags
import DocEntities.Proofs.Tag
import DocEntities.Proofs.TagOrder

namespace DocEntities

/-! ### The name behind an at sign -/

namespace Tag

/-- Whether the text behind an at sign opens with a name. One more at sign is a name only if it
stands alone. -/
def OpensWithName (text : List Char) : Prop :=
  text.takeWhile isNameChar = ['@'] ∨
    ∃ c rest, text.takeWhile isNameChar = c :: rest ∧ c ≠ '@'

instance (text : List Char) : Decidable (OpensWithName text) :=
  match named : text.takeWhile isNameChar with
  | [] => isFalse (by simp [OpensWithName, named])
  | c :: rest => decidable_of_iff ((c = '@' ∧ rest = []) ∨ c ≠ '@') (by simp [OpensWithName, named])

theorem opensWithName_congr {text other : List Char}
    (same : text.takeWhile isNameChar = other.takeWhile isNameChar) :
    OpensWithName text ↔ OpensWithName other := by
  unfold OpensWithName
  rw [same]

theorem takeWhile_isNameChar_of_blank {blanks : List Char}
    (blank : ∀ c ∈ blanks, Text.isSpace c = true) : blanks.takeWhile isNameChar = [] := by
  cases blanks with
  | nil => rfl
  | cons c rest =>
    have isBlank : Text.isSpace c = true := blank c List.mem_cons_self
    exact List.takeWhile_cons_of_neg (by simp [isNameChar, isBlank])

theorem takeWhile_isNameChar_trimEnd (text : List Char) :
    (Text.trimEnd text).takeWhile isNameChar = text.takeWhile isNameChar := by
  obtain ⟨blanks, parts, blank⟩ := Text.exists_eq_trimEnd_append text
  conv_rhs => rw [parts]
  exact (Text.takeWhile_append_of_stops (takeWhile_isNameChar_of_blank blank) _).symm

/-- No name goes on over the end of a line. -/
theorem takeWhile_isNameChar_of_splitPair {text first : List Char} {later : List (List Char)}
    (cut : Text.splitPair '\n' '@' text = first :: later) :
    first.takeWhile isNameChar = text.takeWhile isNameChar := by
  have whole : first ++ later.flatMap (fun piece => '\n' :: '@' :: piece) = text := by
    rw [← Text.joinWith_pair, ← cut, Text.joinWith_splitPair]
  rw [← whole, Text.takeWhile_append_of_stops]
  cases later with
  | nil => rfl
  | cons piece rest => exact List.takeWhile_cons_of_neg (by decide)

/-! ### A tag with and without its at sign -/

theorem read?_congr {segment other : List Char}
    (same : dropAtSign (Text.trimmed segment) = dropAtSign (Text.trimmed other)) :
    read? (String.ofList segment) = read? (String.ofList other) := by
  unfold read?
  simp only [String.toList_ofList, same]

theorem trimmed_atSign_cons (text : List Char) :
    Text.trimmed ('@' :: text) = '@' :: Text.trimEnd text := by
  have dark : Text.isSpace '@' = false := by decide
  rw [Text.trimmed_cons dark, Text.trimEnd_cons_of_not_blank dark]

theorem dropAtSign_atSign_cons_of_unnamed {text : List Char}
    (unnamed : text.takeWhile isNameChar = []) : dropAtSign ('@' :: text) = '@' :: text := by
  cases text with
  | nil => rfl
  | cons c rest =>
    have closed : ¬isNameChar c = true := fun opens => by simp [opens] at unnamed
    rw [dropAtSign, if_neg closed]

theorem not_blank_of_isNameChar {c : Char} (opens : isNameChar c = true) :
    Text.isSpace c = false := by
  simp only [isNameChar, Bool.and_eq_true, Bool.not_eq_true'] at opens
  exact opens.1

theorem exists_of_takeWhile_eq_cons {text more : List Char} {c : Char}
    (named : text.takeWhile isNameChar = c :: more) :
    ∃ rest, text = c :: rest ∧ isNameChar c = true ∧ rest.takeWhile isNameChar = more := by
  cases text with
  | nil => cases named
  | cons d rest =>
    rw [List.takeWhile_cons] at named
    split at named
    · rename_i opens
      obtain ⟨rfl, rfl⟩ := List.cons.inj named
      exact ⟨rest, rfl, opens, rfl⟩
    · cases named

theorem not_opensWithName_iff {text : List Char} :
    ¬OpensWithName text ↔ text.takeWhile isNameChar = [] ∨
      ∃ c more, text.takeWhile isNameChar = '@' :: c :: more := by
  unfold OpensWithName
  cases text.takeWhile isNameChar with
  | nil => simp
  | cons first more => cases more <;> simp [eq_comm]

/-- In front of a name it does not matter whether the at sign is there. -/
theorem read?_atSign_cons {text : List Char} (opens : OpensWithName text) :
    read? (String.ofList ('@' :: text)) = read? (String.ofList text) := by
  refine read?_congr ?_
  rw [trimmed_atSign_cons]
  rcases opens with sign | ⟨c, more, named, notSign⟩
  · obtain ⟨rest, rfl, isName, unnamed⟩ := exists_of_takeWhile_eq_cons sign
    have unnamedEnd : (Text.trimEnd rest).takeWhile isNameChar = [] :=
      (takeWhile_isNameChar_trimEnd rest).trans unnamed
    rw [trimmed_atSign_cons, Text.trimEnd_cons_of_not_blank (not_blank_of_isNameChar isName),
      dropAtSign, if_pos isName, dropAtSign_atSign_cons_of_unnamed unnamedEnd]
  · obtain ⟨rest, rfl, isName, -⟩ := exists_of_takeWhile_eq_cons named
    have dark : Text.isSpace c = false := not_blank_of_isNameChar isName
    rw [Text.trimmed_cons dark, Text.trimEnd_cons_of_not_blank dark, dropAtSign, if_pos isName,
      dropAtSign_of_ne notSign]

/-- Where no name follows, the at sign becomes part of the name. -/
theorem takeWhile_atSign_cons {text : List Char} (unnamed : ¬OpensWithName text) :
    (dropAtSign (Text.trimmed ('@' :: text))).takeWhile isNameChar =
      '@' :: (text.takeWhile isNameChar).tail := by
  have sign : isNameChar '@' = true := by decide
  rw [trimmed_atSign_cons]
  rcases not_opensWithName_iff.mp unnamed with nothing | ⟨c, more, named⟩
  · have nothingEnd := (takeWhile_isNameChar_trimEnd text).trans nothing
    rw [dropAtSign_atSign_cons_of_unnamed nothingEnd, List.takeWhile_cons_of_pos sign, nothingEnd,
      nothing, List.tail_nil]
  · obtain ⟨rest, rfl, -, further⟩ := exists_of_takeWhile_eq_cons named
    rw [Text.trimEnd_cons_of_not_blank (not_blank_of_isNameChar sign), dropAtSign, if_pos sign,
      List.takeWhile_cons_of_pos sign, takeWhile_isNameChar_trimEnd, further, named, List.tail_cons]

theorem exists_read?_atSign_cons {text : List Char} (unnamed : ¬OpensWithName text) :
    ∃ tag, read? (String.ofList ('@' :: text)) = some tag ∧
      tag.name.toList = '@' :: (text.takeWhile isNameChar).tail := by
  have named := takeWhile_atSign_cons unnamed
  rw [← @String.toList_ofList ('@' :: text)] at named
  have present : read? (String.ofList ('@' :: text)) ≠ none := fun absent =>
    List.cons_ne_nil _ _ (named.symm.trans ((read?_eq_none_iff_unnamed _).mp absent))
  obtain ⟨tag, read⟩ := Option.ne_none_iff_exists'.mp present
  exact ⟨tag, read, (name_of_read? read).trans named⟩

/-- An at sign in front of a blank has all the text behind it for its description. -/
theorem read?_atSign_cons_of_sign {text rest : List Char}
    (nothing : text.takeWhile isNameChar = []) (sign : Text.trimmed text = '@' :: rest) :
    read? (String.ofList ('@' :: text)) =
      some ⟨"@", none, some (String.ofList (Text.trimmed text))⟩ := by
  have nothingEnd := (takeWhile_isNameChar_trimEnd text).trans nothing
  have opens : isNameChar '@' = true := by decide
  have taken : ('@' :: Text.trimEnd text).takeWhile isNameChar = ['@'] := by
    rw [List.takeWhile_cons_of_pos opens, nothingEnd]
  have behind : ('@' :: Text.trimEnd text).dropWhile isNameChar = Text.trimEnd text := by
    have whole := @List.takeWhile_append_dropWhile _ isNameChar (Text.trimEnd text)
    rw [nothingEnd, List.nil_append] at whole
    rw [List.dropWhile_cons_of_pos opens, whole]
  have again : Text.trimmed ('@' :: rest) = '@' :: rest := by
    rw [← sign, Text.trimmed_trimmed]
  unfold read?
  simp only [String.toList_ofList, trimmed_atSign_cons, taken, behind, sign, Text.trimStart_trimEnd,
    dropAtSign_atSign_cons_of_unnamed nothingEnd, braced?, again, Text.nonEmpty?]
  rfl

theorem length_dropAtSign_le (text : List Char) : (dropAtSign text).length ≤ text.length := by
  fun_cases dropAtSign text with
  | case1 c rest => exact Nat.le_succ _
  | _ => exact Nat.le_refl _

theorem opens_of_dropAtSign {text rest : List Char} (dropped : dropAtSign text = '@' :: rest) :
    ∃ behind, text = '@' :: behind := by
  revert dropped
  fun_cases dropAtSign text with
  | case1 c behind => exact fun _ => ⟨c :: behind, rfl⟩
  | case2 c behind => exact fun _ => ⟨c :: behind, rfl⟩
  | case3 => exact fun same => ⟨rest, same⟩

/-- The two readings of a tag that opens with no name differ in the name or in the description. -/
theorem opensWithName_of_read? {text : List Char} {alone behind : Tag}
    (readAlone : read? (String.ofList ('@' :: text)) = some alone)
    (readBehind : read? (String.ofList text) = some behind) (name : behind.name = alone.name)
    (description : behind.description = alone.description) : OpensWithName text := by
  by_contra unnamed
  have nameBehind := name_of_read? readBehind
  have nameAlone := name_of_read? readAlone
  rw [String.toList_ofList, takeWhile_atSign_cons unnamed] at nameAlone
  rw [name, nameAlone, String.toList_ofList] at nameBehind
  rcases not_opensWithName_iff.mp unnamed with nothing | ⟨c, more, named⟩
  · -- The reading behind a description starts at an at sign further on, so it has less text.
    rw [nothing, List.tail_nil] at nameBehind
    obtain ⟨rest, dropped, -⟩ := exists_of_takeWhile_eq_cons nameBehind.symm
    obtain ⟨after, sign⟩ := opens_of_dropAtSign dropped
    obtain rfl := Option.some.inj ((read?_atSign_cons_of_sign nothing sign).symm.trans readAlone)
    obtain ⟨rest, isRest, -, described, -⟩ := exists_of_read? readBehind
    have same : Text.trimmed rest = Text.trimmed text :=
      (String.ofList_injective
        (Text.eq_ofList_of_nonEmpty? (described.symm.trans description))).symm
    have whole := congrArg List.length
      (@List.takeWhile_append_dropWhile _ isNameChar (dropAtSign (Text.trimmed text)))
    have bound := length_dropAtSign_le (Text.trimmed text)
    have short := (Text.length_trimmed_le rest).trans isRest.length_le
    rw [String.toList_ofList] at short
    rw [List.length_append, ← nameBehind, List.length_singleton] at whole
    rw [same] at short
    omega
  · obtain ⟨rest, rfl, -, further⟩ := exists_of_takeWhile_eq_cons named
    have furtherEnd := (takeWhile_isNameChar_trimEnd rest).trans further
    obtain ⟨after, ends, isName, -⟩ := exists_of_takeWhile_eq_cons furtherEnd
    rw [trimmed_atSign_cons, ends, dropAtSign, if_pos isName, ← ends, furtherEnd, named,
      List.tail_cons] at nameBehind
    exact List.cons_ne_self _ _ nameBehind

theorem role_of_atSign {name : String} {rest : List Char} (sign : name.toList = '@' :: rest) :
    TagRole.ofName name = .remark := by
  have other (word : String) (plain : word.toList.head? ≠ some '@') : (name == word) = false := by
    refine beq_eq_false_iff_ne.mpr ?_
    rintro rfl
    exact plain (by rw [sign]; rfl)
  have noKind : Kind.ofTag? name = none := by
    have kinds : ∀ kind ∈ Kind.all, kind.name.toList.head? ≠ some '@' := by decide
    rw [Kind.ofTag?, other "method" (by decide), if_neg Bool.false_ne_true, Kind.ofName?,
      List.find?_eq_none]
    intro kind member
    rw [BEq.comm, other kind.name (kinds kind member)]
    exact Bool.false_ne_true
  have unlike (word : String) (plain : (word.toList.map Char.toLower).head? ≠ some '@') :
      TagRole.sameIgnoringCase name word = false := by
    refine beq_eq_false_iff_ne.mpr fun same => plain ?_
    rw [← same, sign]
    rfl
  unfold TagRole.ofName
  simp [noKind, other "param" (by decide), other "return" (by decide), other "returns" (by decide),
    other "name" (by decide), other "deprecated" (by decide), other "extends" (by decide),
    other "augments" (by decide), other "inherits" (by decide), other "type" (by decide),
    other "instance" (by decide), other "description" (by decide), other "summary" (by decide),
    unlike "inheritdoc" (by decide), unlike "memberof" (by decide)]

end Tag

/-! ### The tags of a comment -/

namespace Comment

/-- At the start of a comment the first tag keeps its at sign. -/
theorem tags_alone {rest : String} {first : List Char} {later : List (List Char)}
    (cut : Text.splitPair '\n' '@' (Text.trimEnd rest.toList) = first :: later) :
    tags ("@" ++ rest) =
      (('@' :: first) :: later).filterMap fun piece => Tag.read? (String.ofList piece) := by
  have opened : ("@" ++ rest).toList = '@' :: rest.toList := String.toList_append
  have different : '@' ≠ '\n' := by decide
  have block : tagBlock ("@" ++ rest) = '@' :: Text.trimEnd rest.toList := by
    unfold tagBlock
    simp only [opened, Tag.trimmed_atSign_cons, List.head?_cons, if_true]
  rw [tags, block, Text.splitPair_cons_of_ne different, cut, Text.consFirst]

/-- Behind a description the at sign of the first tag goes with the line break. -/
theorem tags_behind {description rest : String} (described : IsDescription description)
    {first : List Char} {later : List (List Char)}
    (cut : Text.splitPair '\n' '@' (Text.trimEnd rest.toList) = first :: later) :
    tags (description ++ "\n" ++ ("@" ++ rest)) =
      (first :: later).filterMap fun piece => Tag.read? (String.ofList piece) := by
  obtain ⟨c, more, cons, dark, notSign⟩ := described.eq_cons
  have different : '\n' ≠ '@' := by decide
  have sign : Text.isSpace '@' = false := by decide
  have text : (description ++ "\n" ++ ("@" ++ rest)).toList =
      description.toList ++ '\n' :: '@' :: rest.toList := by
    simp [String.toList_append]
  have trimmed : Text.trimmed (description ++ "\n" ++ ("@" ++ rest)).toList =
      description.toList ++ '\n' :: '@' :: Text.trimEnd rest.toList := by
    have split : description.toList ++ '\n' :: '@' :: rest.toList =
        (description.toList ++ ['\n']) ++ '@' :: rest.toList := by simp
    rw [text, cons, List.cons_append, Text.trimmed_cons dark, ← List.cons_append, ← cons, split,
      Text.trimEnd_append_cons sign, Text.trimEnd_cons_of_not_blank sign]
    simp
  have untagged : ¬(description.toList ++ '\n' :: '@' :: Text.trimEnd rest.toList).head? =
      some '@' := by
    rw [cons]
    simpa using notSign
  have block : tagBlock (description ++ "\n" ++ ("@" ++ rest)) = Text.trimEnd rest.toList := by
    unfold tagBlock
    simp only [trimmed, if_neg untagged, Text.splitPair_append different,
      Text.splitPair_of_free described.lines, List.singleton_append, List.tail_cons,
      Text.joinWith_splitPair]
  rw [tags, block, cut]

end Comment

/-! ### Fields -/

namespace Evidence

variable {tag : Tag} {name : String}

/-- Whether two evidences say the same but for the description and the summary. -/
def AgreesBesideText (first second : Evidence) : Prop :=
  ∀ field, field ≠ .description → field ≠ .summary → first.get field = second.get field

theorem AgreesBesideText.symm {first second : Evidence} (agrees : first.AgreesBesideText second) :
    second.AgreesBesideText first :=
  fun field notDescription notSummary => (agrees field notDescription notSummary).symm

theorem AgreesBesideText.trans {first second third : Evidence}
    (agrees : first.AgreesBesideText second) (further : second.AgreesBesideText third) :
    first.AgreesBesideText third :=
  fun field notDescription notSummary =>
    (agrees field notDescription notSummary).trans (further field notDescription notSummary)

/-- But for the description and the summary a comment says what its tags say. -/
theorem agreesBesideText_ofComment (text : String) :
    (ofComment text).AgreesBesideText (ofTags (Comment.tags text)) := by
  obtain ⟨description, summary, merged⟩ := ofComment_eq_merge text
  intro field notDescription notSummary
  have silent : ({ description := description, summary := summary } : Evidence).get field =
      field.silence := by
    cases field with
    | description => exact absurd rfl notDescription
    | summary => exact absurd rfl notSummary
    | _ => rfl
  rw [merged, get_merge, silent]
  exact field.silence_overlay _

theorem remark_mem_fields_iff :
    .remark name ∈ tag.fields ↔ TagRole.ofName tag.name = .remark ∧ tag.name = name := by
  unfold Tag.fields
  cases TagRole.ofName tag.name with
  | kind kind => by_cases described : tag.description.isSome = true <;> simp [described]
  | remark => simp [eq_comm]
  | _ => simp

/-- The remark of a tag does not depend on what was known before. -/
theorem get_applyTag_remark (role : TagRole.ofName tag.name = .remark) (evidence : Evidence) :
    (evidence.applyTag tag).get (.remark tag.name) = some tag.remark := by
  unfold applyTag
  rw [role]
  exact get_remark_insert evidence _ _

theorem get_foldl_remark_of_unwritten {tags : List Tag}
    (unwritten : ∀ tag ∈ tags, .remark name ∉ tag.fields) (evidence : Evidence) :
    (tags.foldl applyTag evidence).get (.remark name) = evidence.get (.remark name) := by
  have filtered : tags.filter (fun tag => .remark name ∈ tag.fields) = [] :=
    List.filter_eq_nil_iff.mpr fun tag member => by simpa using unwritten tag member
  rw [get_foldl_applyTag rfl tags, filtered, List.foldl_nil]

/-- Where a tag leaves a remark, what was known before is lost. -/
theorem get_foldl_remark_of_written {tags : List Tag}
    (written : ∃ tag ∈ tags, .remark name ∈ tag.fields) (first second : Evidence) :
    (tags.foldl applyTag first).get (.remark name) =
      (tags.foldl applyTag second).get (.remark name) := by
  induction tags generalizing first second with
  | nil => simp at written
  | cons tag rest inductionHypothesis =>
    by_cases here : .remark name ∈ tag.fields
    · obtain ⟨role, rfl⟩ := remark_mem_fields_iff.mp here
      have same : (first.applyTag tag).get (.remark tag.name) =
          (second.applyTag tag).get (.remark tag.name) := by
        rw [get_applyTag_remark role, get_applyTag_remark role]
      rw [List.foldl_cons, List.foldl_cons, get_foldl_applyTag same, ← get_foldl_applyTag rfl]
    · have later : ∃ tag ∈ rest, .remark name ∈ tag.fields := by
        simpa [here] using written
      exact inductionHypothesis later _ _

/-- A remark is lost to a later one of the same name. -/
theorem ofTags_cons_of_overwritten {first : Tag} {later : List Tag}
    (role : TagRole.ofName first.name = .remark) (again : ∃ tag ∈ later, tag.name = first.name) :
    ofTags (first :: later) = ofTags later := by
  have written : ∃ tag ∈ later, .remark first.name ∈ tag.fields := by
    obtain ⟨tag, member, same⟩ := again
    exact ⟨tag, member, remark_mem_fields_iff.mpr ⟨same ▸ role, same⟩⟩
  refine eq_of_get_eq fun field => ?_
  rw [ofTags, ofTags, List.foldl_cons]
  by_cases remark : field = .remark first.name
  · rw [remark]
    exact get_foldl_remark_of_written written _ _
  · have untouched : field ∉ first.fields := by
      unfold Tag.fields
      rw [role]
      simpa using remark
    rw [get_foldl_applyTag (get_applyTag_of_not_mem untouched _), ← get_foldl_applyTag rfl]

theorem description_eq_of_remark_eq {first second : Tag} (same : first.remark = second.remark) :
    first.description = second.description := by
  unfold Tag.remark at same
  cases isFirst : first.description <;> cases isSecond : second.description <;>
    simp_all

/-- A remark that only one of two readings leaves is seen, unless a later tag leaves it again. -/
theorem overwritten_of_agrees {first : Tag} {other : Option Tag} {later : List Tag}
    (role : TagRole.ofName first.name = .remark)
    (different : ∀ tag, other = some tag → tag.name = first.name →
      tag.description ≠ first.description)
    (agrees : (ofTags (other.toList ++ later)).AgreesBesideText (ofTags (first :: later))) :
    ∃ tag ∈ later, tag.name = first.name := by
  by_contra unnamed
  have unwritten : ∀ tag ∈ later, .remark first.name ∉ tag.fields := fun tag member inside =>
    unnamed ⟨tag, member, (remark_mem_fields_iff.mp inside).2⟩
  have said := agrees (.remark first.name) nofun nofun
  rw [ofTags, List.foldl_append, get_foldl_remark_of_unwritten unwritten, ofTags, List.foldl_cons,
    get_foldl_remark_of_unwritten unwritten, get_applyTag_remark role] at said
  cases isOther : other with
  | none =>
    rw [isOther] at said
    cases said
  | some tag =>
    rw [isOther, Option.toList_some, List.foldl_cons, List.foldl_nil] at said
    by_cases writes : .remark first.name ∈ tag.fields
    · obtain ⟨roleTag, name⟩ := remark_mem_fields_iff.mp writes
      rw [← name, get_applyTag_remark roleTag] at said
      exact different tag isOther name (description_eq_of_remark_eq (Option.some.inj said))
    · rw [get_applyTag_of_not_mem writes] at said
      cases said

end Evidence

/-! ### Places -/

/-- A tag block says the same behind a description as alone, but for the description and the
summary, exactly if its at sign is followed by a name or what is read instead is lost: alone the
name of the first tag has the at sign in it, so a later tag must have that name too, and behind a
description the later tags must leave nothing of what the first one says. -/
theorem first_tag_agrees_iff {description : String} (described : Comment.IsDescription description)
    (rest : String) :
    (Evidence.ofComment (description ++ "\n" ++ ("@" ++ rest))).AgreesBesideText
        (Evidence.ofComment ("@" ++ rest)) ↔
      Tag.OpensWithName rest.toList ∨
        ∃ first later, Comment.tags ("@" ++ rest) = first :: later ∧
          (∃ tag ∈ later, tag.name = first.name) ∧
          (Evidence.ofTags (Comment.tags (description ++ "\n" ++ ("@" ++ rest)))).AgreesBesideText
            (Evidence.ofTags later) := by
  obtain ⟨piece, pieces, cut⟩ := List.exists_cons_of_ne_nil
    (Text.splitPair_ne_nil '\n' '@' (Text.trimEnd rest.toList))
  have opens : Tag.OpensWithName piece ↔ Tag.OpensWithName rest.toList :=
    Tag.opensWithName_congr ((Tag.takeWhile_isNameChar_of_splitPair cut).trans
      (Tag.takeWhile_isNameChar_trimEnd _))
  let later := pieces.filterMap fun piece => Tag.read? (String.ofList piece)
  have behind : Comment.tags (description ++ "\n" ++ ("@" ++ rest)) =
      (Tag.read? (String.ofList piece)).toList ++ later := by
    rw [Comment.tags_behind described cut, List.filterMap_cons]
    cases Tag.read? (String.ofList piece) <;> rfl
  have saidBehind := Evidence.agreesBesideText_ofComment (description ++ "\n" ++ ("@" ++ rest))
  have saidAlone := Evidence.agreesBesideText_ofComment ("@" ++ rest)
  by_cases named : Tag.OpensWithName rest.toList
  · refine iff_of_true (saidBehind.trans ?_) (Or.inl named)
    have same : Comment.tags (description ++ "\n" ++ ("@" ++ rest)) =
        Comment.tags ("@" ++ rest) := by
      rw [Comment.tags_behind described cut, Comment.tags_alone cut, List.filterMap_cons,
        List.filterMap_cons, Tag.read?_atSign_cons (opens.mpr named)]
    rw [same]
    exact saidAlone.symm
  · obtain ⟨first, read, sign⟩ := Tag.exists_read?_atSign_cons (mt opens.mp named)
    have role : TagRole.ofName first.name = .remark := Tag.role_of_atSign sign
    have alone : Comment.tags ("@" ++ rest) = first :: later := by
      rw [Comment.tags_alone cut, List.filterMap_cons, read]
    rw [or_iff_right named]
    constructor
    · intro agrees
      have agreesTags := (saidBehind.symm.trans agrees).trans saidAlone
      rw [alone] at agreesTags
      have again : ∃ tag ∈ later, tag.name = first.name := by
        refine Evidence.overwritten_of_agrees role (fun tag readTag name description => ?_)
          (behind ▸ agreesTags)
        exact named (opens.mp (Tag.opensWithName_of_read? read readTag name description))
      rw [Evidence.ofTags_cons_of_overwritten role again] at agreesTags
      exact ⟨first, later, alone, again, agreesTags⟩
    · rintro ⟨first, later, isAlone, again, agrees⟩
      obtain ⟨rfl, rfl⟩ := List.cons.inj (alone.symm.trans isAlone)
      rw [alone, Evidence.ofTags_cons_of_overwritten role again] at saidAlone
      exact (saidBehind.trans agrees).trans saidAlone.symm

/-- A lone at sign leaves a remark at the start of a comment only, but here a later tag leaves the
same one. -/
theorem first_tag_agrees_iff_hiddenSign :
    Comment.IsDescription "Grows." ∧ ¬Tag.OpensWithName "\n@@ trees".toList ∧
      (Evidence.ofComment ("Grows." ++ "\n" ++ ("@" ++ "\n@@ trees"))).AgreesBesideText
        (Evidence.ofComment ("@" ++ "\n@@ trees")) := by
  have described : Comment.IsDescription "Grows." :=
    ⟨by decide, by decide +kernel, by decide +kernel, by decide +kernel⟩
  have alone : Comment.tags ("@" ++ "\n@@ trees") =
      [⟨"@", none, none⟩, ⟨"@", none, some "trees"⟩] := by decide +kernel
  have behind : Comment.tags ("Grows." ++ "\n" ++ ("@" ++ "\n@@ trees")) =
      [⟨"@", none, some "trees"⟩] := by decide +kernel
  refine ⟨described, by decide +kernel, (first_tag_agrees_iff described _).mpr (Or.inr ?_)⟩
  exact ⟨_, _, alone, ⟨_, List.mem_singleton_self _, rfl⟩, behind ▸ fun _ _ _ => rfl⟩

/-- A lone at sign is nothing behind a description, but a remark where it opens the comment. -/
theorem first_tag_differs_loneSign :
    Comment.IsDescription "Grows." ∧
      ¬(Evidence.ofComment ("Grows." ++ "\n" ++ ("@" ++ ""))).AgreesBesideText
        (Evidence.ofComment ("@" ++ "")) := by
  refine ⟨⟨by decide, by decide +kernel, by decide +kernel, by decide +kernel⟩, fun agrees => ?_⟩
  have said : (Evidence.ofComment ("Grows." ++ "\n" ++ ("@" ++ ""))).remarks.get? "@" =
      (Evidence.ofComment ("@" ++ "")).remarks.get? "@" := agrees (.remark "@") nofun nofun
  exact absurd said (by decide +kernel)

end DocEntities
