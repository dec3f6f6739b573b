/-
This file proves that comments are read back as they are written. A comment is written the way
people lay it out: a description, then one tag a line, and a star before every line. Reading
goes through the same three layers in turn. The marks are taken out line by line, so stars
inside the text stay; the text is cut wherever an at sign opens a line; and every piece is read
as a tag, whose braces end the name and whose first closing brace ends the types.
-/

import DocEntities.Comment.Markers
import DocEntities.Comment.Reading
import DocEntities.Proofs.Layers
import DocEntities.Proofs.Tag
import Mathlib.Data.Bool.AllAny
import Mathlib.Data.List.Forall2

namespace DocEntities

/-! ### Writing -/

namespace Comment

/-- A description and the tags behind it, each tag on a line of its own. -/
def body (description : String) (tags : List Tag) : List Char :=
  description.toList ++ tags.flatMap (fun tag => '\n' :: '@' :: tag.text)

/-- A line of a comment behind its star. -/
def markLine (line : List Char) : List Char :=
  ' ' :: '*' :: ' ' :: line

/-- What stands between the delimiters of a documentation comment with this text. -/
def written (description : String) (tags : List Tag) : String :=
  String.ofList ('*' :: '\n' ::
    (Text.joinWith ['\n'] ((Text.splitWhere (· == '\n') (body description tags)).map markLine) ++
      ['\n', ' ']))

/-- A text that reads as a description: it is trimmed, and no at sign opens one of its lines. -/
structure IsDescription (description : String) : Prop where
  nonempty : description ≠ ""
  trimmed : Text.trim description = description
  start : description.toList.head? ≠ some '@'
  lines : ¬['\n', '@'] <:+: description.toList

end Comment

/-- A tag whose parts can be told apart when it is written. -/
structure Tag.IsWritable (tag : Tag) : Prop where
  name_nonempty : tag.name ≠ ""
  name_chars : ∀ c ∈ tag.name.toList, Text.isSpace c = false ∧ c ≠ '\x7b'
  name_start : tag.name.toList.head? ≠ some '@'
  types_nonempty : tag.types ≠ some []
  types : ∀ types, tag.types = some types → ∀ type ∈ types,
    type ≠ "" ∧ Text.trim type = type ∧ ∀ c ∈ type.toList, c ≠ '|' ∧ c ≠ ',' ∧ c ≠ '/' ∧ c ≠ '\x7d'
  description : ∀ text, tag.description = some text → text ≠ "" ∧ Text.trim text = text
  lines : ¬['\n', '@'] <:+: tag.text

/-! ### Marks -/

namespace Comment

theorem dropLineMarker_markLine (line : List Char) : dropLineMarker (markLine line) = line :=
  rfl

theorem splitWhere_written_lines (text : List Char) :
    Text.splitWhere (· == '\n')
        (Text.joinWith ['\n'] ((Text.splitWhere (· == '\n') text).map markLine)) =
      (Text.splitWhere (· == '\n') text).map markLine := by
  refine Text.splitWhere_beq_joinWith '\n' ?_ ?_
  · simpa using Text.splitWhere_ne_nil _ _
  · intro line member c inside
    obtain ⟨plain, cut, rfl⟩ := List.mem_map.mp member
    simp only [markLine, List.mem_cons] at inside
    rcases inside with rfl | rfl | rfl | inside
    · rfl
    · rfl
    · rfl
    · exact Text.not_separates_of_mem_splitWhere cut c inside

/-- Taking the marks out gives the text back, on lines of its own. -/
theorem stripMarkers_written (description : String) (tags : List Tag) :
    stripMarkers (written description tags) =
      String.ofList (['\n'] ++ body description tags ++ ['\n', ' ']) := by
  let lines := Text.splitWhere (· == '\n') (body description tags)
  have some : lines ≠ [] := Text.splitWhere_ne_nil _ _
  have cut : Text.splitWhere (· == '\n')
      ([] ++ '\n' :: (Text.joinWith ['\n'] (lines.map markLine) ++ '\n' :: [' '])) =
        [] :: (lines.map markLine ++ [[' ']]) := by
    rw [Text.splitWhere_beq_append_cons, Text.splitWhere_beq_append_cons,
      splitWhere_written_lines]
    rfl
  have unmarked : (lines.map markLine).map dropLineMarker = lines := by
    rw [List.map_map, show dropLineMarker ∘ markLine = id from funext dropLineMarker_markLine,
      List.map_id]
  have joined : Text.joinWith ['\n'] ([] :: (lines ++ [[' ']])) =
      ['\n'] ++ body description tags ++ ['\n', ' '] := by
    rw [Text.joinWith_cons _ _ (List.append_ne_nil_of_left_ne_nil some _),
      Text.joinWith_append _ some (List.cons_ne_nil _ _), Text.joinWith_splitWhere]
    simp [Text.joinWith]
  have opened : dropOpeningStar (written description tags).toList =
      [] ++ '\n' :: (Text.joinWith ['\n'] (lines.map markLine) ++ '\n' :: [' ']) := by
    rw [written, String.toList_ofList]
    rfl
  unfold stripMarkers
  simp only [opened, cut, List.map_cons, List.map_append, unmarked, List.map_nil]
  exact congrArg String.ofList joined

end Comment

/-! ### Tags -/

namespace Tag

variable {tag : Tag}

theorem IsWritable.wellFormed (writable : tag.IsWritable) : tag.IsWellFormed where
  name_nonempty := writable.name_nonempty
  name_chars := writable.name_chars
  types_nonempty := writable.types_nonempty
  types := writable.types
  description := writable.description

/-- A piece that is a written tag but for blanks around it is read as that tag. -/
theorem read?_of_trimmed (writable : tag.IsWritable) {piece : List Char}
    (same : Text.trimmed piece = tag.core) : read? (String.ofList piece) = some tag := by
  refine writable.wellFormed.read?_of_core ?_
  obtain ⟨c, rest, name, -⟩ := writable.wellFormed.name_eq_cons
  have notSign : c ≠ '@' := by
    rintro rfl
    exact writable.name_start (by rw [name]; rfl)
  rw [same, core, name, List.cons_append, dropAtSign_of_ne notSign]

theorem filterMap_read?_text {tags : List Tag} (writable : ∀ tag ∈ tags, tag.IsWritable) :
    (tags.map text).filterMap (fun piece => read? (String.ofList piece)) = tags := by
  induction tags with
  | nil => rfl
  | cons tag rest inductionHypothesis =>
    obtain ⟨first, later⟩ := List.forall_mem_cons.mp writable
    have read := read?_of_trimmed first first.wellFormed.trimmed_text
    simp only [List.map_cons, List.filterMap_cons, read, inductionHypothesis later]

end Tag

/-! ### Whole comments -/

namespace Comment

variable {description : String} {tags : List Tag}

theorem IsDescription.eq_cons (described : IsDescription description) :
    ∃ c rest, description.toList = c :: rest ∧ Text.isSpace c = false ∧ c ≠ '@' := by
  obtain ⟨c, rest, cons, dark⟩ :=
    Text.exists_cons_of_trim described.nonempty described.trimmed
  exact ⟨c, rest, cons, dark, fun isAt => described.start (by rw [cons, isAt]; rfl)⟩

/-- Trimming leaves the written tags as they are, but for a blank behind the last of them. -/
theorem trimEnd_body (described : IsDescription description)
    (writable : ∀ tag ∈ tags, tag.IsWritable) :
    ∃ pieces : List (List Char),
      Text.trimEnd (body description tags) =
        description.toList ++ pieces.flatMap (fun piece => '\n' :: '@' :: piece) ∧
      pieces.filterMap (fun piece => Tag.read? (String.ofList piece)) = tags ∧
      (∀ piece ∈ pieces, piece ≠ [] ∧ ¬['\n', '@'] <:+: piece) := by
  rcases List.eq_nil_or_concat' tags with rfl | ⟨init, last, rfl⟩
  · refine ⟨[], ?_, rfl, by simp⟩
    have same := Text.trimmed_toList_of_trim described.trimmed
    rw [body, List.flatMap_nil, List.append_nil, Text.trimEnd_of_trimmed same, List.flatMap_nil,
      List.append_nil]
  · have writableInit : ∀ tag ∈ init, tag.IsWritable := fun tag member =>
      writable tag (List.mem_append_left _ member)
    have writableLast : last.IsWritable :=
      writable last (List.mem_append_right _ (List.mem_singleton_self last))
    obtain ⟨c, rest, core, dark⟩ := writableLast.wellFormed.core_eq_cons
    obtain ⟨blanks, blank, text⟩ := Tag.text_eq_core last
    refine ⟨init.map Tag.text ++ [last.core], ?_, ?_, ?_⟩
    · have split : body description (init ++ [last]) =
          (description.toList ++ init.flatMap (fun tag => '\n' :: '@' :: tag.text) ++ ['\n', '@'])
            ++ last.core ++ blanks := by
        rw [body, List.flatMap_append, List.flatMap_singleton, text]
        simp
      rw [split, Text.trimEnd_append_of_blank blank, core, Text.trimEnd_append_cons dark, ← core,
        writableLast.wellFormed.trimEnd_core, List.flatMap_append, List.flatMap_map,
        List.flatMap_singleton]
      simp
    · have readInit := Tag.filterMap_read?_text writableInit
      have readLast := Tag.read?_of_trimmed writableLast writableLast.wellFormed.trimmed_core
      simp only [List.filterMap_append, readInit, List.filterMap_cons, readLast, List.filterMap_nil]
    · intro piece member
      rcases List.mem_append.mp member with member | member
      · obtain ⟨tag, isTag, rfl⟩ := List.mem_map.mp member
        obtain ⟨c, rest, name, -⟩ := (writableInit tag isTag).wellFormed.name_eq_cons
        exact ⟨by rw [Tag.text, name]; exact List.cons_ne_nil _ _, (writableInit tag isTag).lines⟩
      · rw [List.mem_singleton.mp member]
        refine ⟨by rw [core]; exact List.cons_ne_nil _ _, fun inside => writableLast.lines ?_⟩
        exact inside.trans (text ▸ (List.prefix_append _ _).isInfix)

end Comment

namespace Evidence

/-- A comment that opens with a description is that description and the tags of the pieces
behind it. -/
theorem ofComment_of_pieces {text : String} {c : Char} {rest : List Char}
    {pieces : List (List Char)}
    (trimmed : Text.trimmed text.toList =
      c :: rest ++ pieces.flatMap (fun piece => '\n' :: '@' :: piece))
    (start : c ≠ '@') (same : Text.trimmed (c :: rest) = c :: rest)
    (free : ¬['\n', '@'] <:+: c :: rest)
    (tagged : ∀ piece ∈ pieces, piece ≠ [] ∧ ¬['\n', '@'] <:+: piece) :
    ofComment text = (ofDescription (c :: rest)).merge
      (ofTags (pieces.filterMap (fun piece => Tag.read? (String.ofList piece)))) := by
  have different : '\n' ≠ '@' := by decide
  have cut : Text.splitPair '\n' '@' (Text.trimmed text.toList) = (c :: rest) :: pieces := by
    rw [trimmed, Text.splitPair_append_flatMap different free fun piece member =>
      (tagged piece member).2]
  have untagged : ofComment text =
      if (Text.joinWith ['\n', '@'] pieces).isEmpty then ofDescription (c :: rest)
      else (ofDescription (c :: rest)).merge (ofTagBlock (Text.joinWith ['\n', '@'] pieces)) := by
    unfold ofComment
    simp only
    split
    · rename_i more opens
      exact absurd (List.cons.inj (trimmed.symm.trans opens)).1 start
    · simp only [cut, same]
  cases pieces with
  | nil => rw [untagged, List.filterMap_nil]; exact (merge_empty _).symm
  | cons piece more =>
    have freePiece := (tagged piece List.mem_cons_self).2
    have freeMore : ∀ other ∈ more, ¬['\n', '@'] <:+: other := fun other member =>
      (tagged other (List.mem_cons_of_mem _ member)).2
    have nonempty : ¬(Text.joinWith ['\n', '@'] (piece :: more)).isEmpty = true := by
      rw [Text.joinWith_pair, List.isEmpty_iff]
      exact List.append_ne_nil_of_left_ne_nil (tagged piece List.mem_cons_self).1 _
    have block : Text.splitPair '\n' '@' (Text.joinWith ['\n', '@'] (piece :: more)) =
        piece :: more := by
      rw [Text.joinWith_pair, Text.splitPair_append_flatMap different freePiece freeMore]
    rw [untagged, if_neg nonempty, ofTagBlock, block]

end Evidence

/-- A written comment is read back: its description, the first paragraph of it as the summary,
and its tags, applied in order. -/
theorem ofComment_stripMarkers_written {description : String} {tags : List Tag}
    (described : Comment.IsDescription description) (writable : ∀ tag ∈ tags, tag.IsWritable) :
    ∃ summary, Text.RunsUpTo '\n' '\n' description.toList summary ∧
      Evidence.ofComment (Comment.stripMarkers (Comment.written description tags)) =
        ({ description := some description,
           summary := some (String.ofList summary) } : Evidence).merge
          (tags.foldl Evidence.applyTag .empty) := by
  refine ⟨_, Text.runsUpTo_beforePair '\n' '\n' description.toList, ?_⟩
  obtain ⟨c, rest, cons, dark, notAt⟩ := described.eq_cons
  obtain ⟨pieces, trimEnd, read, tagged⟩ := Comment.trimEnd_body described writable
  have opens : ∃ more, Comment.body description tags = c :: more :=
    ⟨_, by rw [Comment.body, cons]; rfl⟩
  obtain ⟨more, body⟩ := opens
  have front : ∀ c ∈ ['\n'], Text.isSpace c = true := List.forall_mem_singleton.mpr rfl
  have back : ∀ c ∈ ['\n', ' '], Text.isSpace c = true :=
    List.forall_mem_cons.mpr ⟨rfl, List.forall_mem_singleton.mpr rfl⟩
  have trimmed : Text.trimmed (Comment.stripMarkers (Comment.written description tags)).toList =
      c :: rest ++ pieces.flatMap (fun piece => '\n' :: '@' :: piece) := by
    rw [Comment.stripMarkers_written, String.toList_ofList, List.append_assoc,
      Text.trimmed_blank_append front, body, List.cons_append, Text.trimmed_cons dark,
      ← List.cons_append, Text.trimEnd_append_of_blank back, ← body, trimEnd, cons]
  have same : Text.trimmed (c :: rest) = c :: rest :=
    cons ▸ Text.trimmed_toList_of_trim described.trimmed
  rw [Evidence.ofComment_of_pieces trimmed notAt same (cons ▸ described.lines) tagged, read,
    ← cons, Evidence.ofDescription, String.ofList_toList]
  rfl

/-- Stars, braces, blank lines and inner at signs come through. -/
theorem starred_comment_read_back :
    let description := "Reads @ once.\n\n* not twice \x7b"
    let tags : List Tag :=
      [⟨"param", some ["String", "\x7b a"], some "[files] * to\n * read"⟩, ⟨"private", none, none⟩]
    Comment.IsDescription description ∧ (∀ tag ∈ tags, tag.IsWritable) ∧
      ∃ summary, Text.RunsUpTo '\n' '\n' description.toList summary ∧
        Evidence.ofComment (Comment.stripMarkers (Comment.written description tags)) =
          ({ description := some description,
             summary := some (String.ofList summary) } : Evidence).merge
            (tags.foldl Evidence.applyTag .empty) := by
  intro description tags
  have described : Comment.IsDescription description :=
    ⟨by decide, by decide +kernel, by decide +kernel, by decide +kernel⟩
  have param : Tag.IsWritable
      ⟨"param", some ["String", "\x7b a"], some "[files] * to\n * read"⟩ := by
    refine ⟨by decide, List.all_iff_forall_prop.mp (by decide +kernel), by decide +kernel,
      by decide, ?_, ?_, by decide +kernel⟩
    · rintro _ ⟨rfl⟩
      refine List.forall_mem_cons.mpr ⟨?_, List.forall_mem_singleton.mpr ?_⟩
      · exact ⟨by decide, by decide +kernel, List.all_iff_forall_prop.mp (by decide +kernel)⟩
      · exact ⟨by decide, by decide +kernel, List.all_iff_forall_prop.mp (by decide +kernel)⟩
    · rintro _ ⟨rfl⟩
      decide +kernel
  have flag : Tag.IsWritable ⟨"private", none, none⟩ :=
    ⟨by decide, List.all_iff_forall_prop.mp (by decide +kernel), by decide +kernel, by decide,
      nofun, nofun, by decide +kernel⟩
  have writable : ∀ tag ∈ tags, tag.IsWritable :=
    List.forall_mem_cons.mpr ⟨param, List.forall_mem_singleton.mpr flag⟩
  exact ⟨described, writable, ofComment_stripMarkers_written described writable⟩

end DocEntities
