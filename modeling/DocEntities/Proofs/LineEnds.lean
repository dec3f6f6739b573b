/-
This file compares how a comment is read with either line end: with newlines alone, and with a
carriage return in front of every newline. A carriage return is a blank, so all that is trimmed or
ends at a blank comes out the same but for the carriage returns that were put in: the lines, the
tags, their descriptions, and the description of the comment. The summary does not. It ends at two
newlines in a row, and with carriage returns there are no such two.
-/

import DocEntities.Proofs.TagPlace

namespace DocEntities

namespace Text

/-! ### Carriage returns -/

/-- A text with a carriage return in front of every newline. -/
def withReturns (text : List Char) : List Char :=
  text.flatMap fun c => if c = '\n' then ['\r', '\n'] else [c]

/-- A text without its carriage returns. -/
def withoutReturns (text : List Char) : List Char :=
  text.filter (· != '\r')

/-- A string with a carriage return in front of every newline. -/
def addReturns (text : String) : String :=
  String.ofList (withReturns text.toList)

/-- A string without its carriage returns. -/
def dropReturns (text : String) : String :=
  String.ofList (withoutReturns text.toList)

theorem withReturns_newline (rest : List Char) :
    withReturns ('\n' :: rest) = '\r' :: '\n' :: withReturns rest :=
  rfl

theorem withReturns_cons {c : Char} (other : c ≠ '\n') (rest : List Char) :
    withReturns (c :: rest) = c :: withReturns rest := by
  rw [withReturns, List.flatMap_cons, if_neg other]
  rfl

theorem withReturns_append (front behind : List Char) :
    withReturns (front ++ behind) = withReturns front ++ withReturns behind :=
  List.flatMap_append

theorem withReturns_of_free {text : List Char} (free : '\n' ∉ text) : withReturns text = text := by
  induction text with
  | nil => rfl
  | cons c rest inductionHypothesis =>
    rw [List.mem_cons, not_or] at free
    rw [withReturns_cons (Ne.symm free.1), inductionHypothesis free.2]

theorem withReturns_eq_nil_iff {text : List Char} : withReturns text = [] ↔ text = [] := by
  cases text with
  | nil => exact iff_of_true rfl rfl
  | cons c rest =>
    refine iff_of_false ?_ (List.cons_ne_nil c rest)
    by_cases newline : c = '\n'
    · rw [newline, withReturns_newline]
      exact List.cons_ne_nil _ _
    · rw [withReturns_cons newline]
      exact List.cons_ne_nil _ _

/-- Deleting the carriage returns undoes putting them in. -/
theorem withoutReturns_withReturns {text : List Char} (free : '\r' ∉ text) :
    withoutReturns (withReturns text) = text := by
  induction text with
  | nil => rfl
  | cons c rest inductionHypothesis =>
    rw [List.mem_cons, not_or] at free
    by_cases newline : c = '\n'
    · rw [newline, withReturns_newline, withoutReturns, List.filter_cons_of_neg (by decide),
        List.filter_cons_of_pos (by decide)]
      exact congrArg _ (inductionHypothesis free.2)
    · have kept : (c != '\r') = true := bne_iff_ne.mpr (Ne.symm free.1)
      rw [withReturns_cons newline, withoutReturns, List.filter_cons, if_pos kept]
      exact congrArg _ (inductionHypothesis free.2)

theorem head?_withReturns {c : Char} (notReturn : c ≠ '\r') (notNewline : c ≠ '\n')
    (text : List Char) : (withReturns text).head? = some c ↔ text.head? = some c := by
  cases text with
  | nil => rfl
  | cons d rest =>
    by_cases newline : d = '\n'
    · rw [newline, withReturns_newline, List.head?_cons, List.head?_cons, Option.some.injEq,
        Option.some.injEq]
      exact iff_of_false (Ne.symm notReturn) (Ne.symm notNewline)
    · rw [withReturns_cons newline, List.head?_cons, List.head?_cons]

section Stops

variable {passes : Char → Bool} (alike : passes '\r' = passes '\n')

include alike

theorem takeWhile_withReturns (text : List Char) :
    (withReturns text).takeWhile passes = withReturns (text.takeWhile passes) := by
  induction text with
  | nil => rfl
  | cons c rest inductionHypothesis =>
    by_cases newline : c = '\n'
    · rw [newline, withReturns_newline]
      by_cases passed : passes '\n' = true
      · rw [List.takeWhile_cons_of_pos (alike.trans passed), List.takeWhile_cons_of_pos passed,
          List.takeWhile_cons_of_pos passed, inductionHypothesis, withReturns_newline]
      · rw [List.takeWhile_cons_of_neg (alike ▸ passed), List.takeWhile_cons_of_neg passed]
        rfl
    · rw [withReturns_cons newline]
      by_cases passed : passes c = true
      · rw [List.takeWhile_cons_of_pos passed, List.takeWhile_cons_of_pos passed,
          inductionHypothesis, withReturns_cons newline]
      · rw [List.takeWhile_cons_of_neg passed, List.takeWhile_cons_of_neg passed]
        rfl

theorem dropWhile_withReturns (text : List Char) :
    (withReturns text).dropWhile passes = withReturns (text.dropWhile passes) := by
  refine @List.append_cancel_left _ ((withReturns text).takeWhile passes) _ _ ?_
  rw [List.takeWhile_append_dropWhile, takeWhile_withReturns alike, ← withReturns_append,
    List.takeWhile_append_dropWhile]

end Stops

theorem isSpace_of_mem_withReturns {blanks : List Char} (blank : ∀ c ∈ blanks, isSpace c = true) :
    ∀ c ∈ withReturns blanks, isSpace c = true := by
  have all : (withReturns blanks).takeWhile isSpace = withReturns blanks := by
    rw [takeWhile_withReturns (by decide), List.takeWhile_eq_self_iff.mpr blank]
  exact List.takeWhile_eq_self_iff.mp all

theorem trimEnd_withReturns (text : List Char) :
    trimEnd (withReturns text) = withReturns (trimEnd text) := by
  induction text using List.reverseRecOn with
  | nil => rfl
  | append_singleton front c inductionHypothesis =>
    cases blank : isSpace c with
    | true =>
      have isBlank : ∀ d ∈ [c], isSpace d = true := List.forall_mem_singleton.mpr blank
      rw [withReturns_append, trimEnd_append_of_blank (isSpace_of_mem_withReturns isBlank),
        trimEnd_append_of_blank isBlank, inductionHypothesis]
    | false =>
      have other : c ≠ '\n' := by
        rintro rfl
        exact absurd blank (by decide)
      have last : ∀ text, trimEnd (text ++ [c]) = text ++ [c] := fun text => by
        rw [trimEnd_append_cons blank, trimEnd_cons_of_not_blank blank]
        rfl
      rw [last, withReturns_append, withReturns_cons other]
      exact last _

/-- The blanks are cut off the same text with either line end. -/
theorem trimmed_withReturns (text : List Char) :
    trimmed (withReturns text) = withReturns (trimmed text) := by
  rw [trimmed, trimStart, dropWhile_withReturns (by decide), trimEnd_withReturns]
  rfl

theorem trimmed_append_return (piece : List Char) :
    trimmed (withReturns piece ++ ['\r']) = withReturns (trimmed piece) := by
  rw [← trimStart_trimEnd, trimEnd_append_of_blank (by simp [isSpace]),
    trimStart_trimEnd, trimmed_withReturns]

theorem dropReturns_addReturns {text : String} (free : '\r' ∉ text.toList) :
    dropReturns (addReturns text) = text := by
  rw [dropReturns, addReturns, String.toList_ofList, withoutReturns_withReturns free,
    String.ofList_toList]

/-- Behind a carriage return no newline follows another. -/
theorem not_infix_withReturns (text : List Char) : ¬['\n', '\n'] <:+: withReturns text := by
  induction text with
  | nil => exact fun inside => absurd inside.length_le (by decide)
  | cons c rest inductionHypothesis =>
    have opens : ¬['\n'] <+: withReturns rest := by
      cases rest with
      | nil => exact fun starts => absurd starts.length_le (by decide)
      | cons d more =>
        by_cases newline : d = '\n'
        · rw [newline, withReturns_newline]
          simp
        · rw [withReturns_cons newline]
          simp [Ne.symm newline]
    by_cases newline : c = '\n'
    · rw [newline, withReturns_newline]
      simp [List.infix_cons_iff, opens, inductionHypothesis]
    · rw [withReturns_cons newline]
      simp [List.infix_cons_iff, Ne.symm newline, inductionHypothesis]

theorem beforePair_withReturns (text : List Char) :
    beforePair '\n' '\n' (withReturns text) = withReturns text := by
  rw [beforePair, splitPair_of_free (not_infix_withReturns text), List.headD_cons]

theorem nonEmpty?_withReturns (text : List Char) :
    nonEmpty? (withReturns text) = (nonEmpty? text).map addReturns := by
  unfold nonEmpty?
  by_cases nothing : text = []
  · rw [nothing]
    rfl
  · rw [if_neg (by simpa [withReturns_eq_nil_iff] using nothing), if_neg (by simpa using nothing),
      Option.map_some, addReturns, String.toList_ofList]

/-! ### Pieces -/

/-- Pieces with a carriage return behind each but the last. -/
def endedPieces : List (List Char) → List (List Char)
  | [] => []
  | [piece] => [piece]
  | piece :: pieces => (piece ++ ['\r']) :: endedPieces pieces

theorem endedPieces_cons (piece : List Char) {pieces : List (List Char)} (some : pieces ≠ []) :
    endedPieces (piece :: pieces) = (piece ++ ['\r']) :: endedPieces pieces := by
  obtain ⟨next, rest, rfl⟩ := List.exists_cons_of_ne_nil some
  rfl

theorem endedPieces_tail (pieces : List (List Char)) :
    (endedPieces pieces).tail = endedPieces pieces.tail := by
  cases pieces with
  | nil => rfl
  | cons piece rest => cases rest <;> rfl

theorem consFirst_endedPieces (c : Char) {pieces : List (List Char)} (some : pieces ≠ []) :
    consFirst c (endedPieces pieces) = endedPieces (consFirst c pieces) := by
  obtain ⟨piece, rest, rfl⟩ := List.exists_cons_of_ne_nil some
  cases rest <;> rfl

theorem joinWith_endedPieces (separator : List Char) (pieces : List (List Char)) :
    joinWith separator (endedPieces pieces) = joinWith ('\r' :: separator) pieces := by
  induction pieces with
  | nil => rfl
  | cons piece rest inductionHypothesis =>
    cases rest with
    | nil => rfl
    | cons next more =>
      have some : endedPieces (next :: more) ≠ [] := by cases more <;> exact List.cons_ne_nil _ _
      rw [endedPieces_cons _ (List.cons_ne_nil _ _), joinWith_cons _ _ some, inductionHypothesis,
        joinWith_cons _ _ (List.cons_ne_nil _ _)]
      simp

theorem withReturns_joinWith (separator : List Char) (pieces : List (List Char)) :
    withReturns (joinWith separator pieces) =
      joinWith (withReturns separator) (pieces.map withReturns) := by
  induction pieces with
  | nil => rfl
  | cons piece rest inductionHypothesis =>
    cases rest with
    | nil => rfl
    | cons next more =>
      rw [joinWith_cons _ _ (List.cons_ne_nil _ _), withReturns_append, withReturns_append,
        inductionHypothesis]
      exact (joinWith_cons _ _ (by simp : (next :: more).map withReturns ≠ [])).symm

theorem consFirst_ne_nil (c : Char) (pieces : List (List Char)) : consFirst c pieces ≠ [] := by
  cases pieces <;> exact List.cons_ne_nil _ _

theorem consFirst_map_withReturns {c : Char} (other : c ≠ '\n') (pieces : List (List Char)) :
    (consFirst c pieces).map withReturns = consFirst c (pieces.map withReturns) := by
  cases pieces with
  | nil => rw [consFirst, List.map_singleton, withReturns_cons other]; rfl
  | cons piece rest => rw [consFirst, List.map_cons, withReturns_cons other]; rfl

theorem consFirst_newline_map_withReturns (pieces : List (List Char)) :
    (consFirst '\n' pieces).map withReturns =
      consFirst '\r' (consFirst '\n' (pieces.map withReturns)) := by
  cases pieces <;> rfl

/-- A cut at the start of a line leaves the carriage return to the line before. -/
theorem splitPair_withReturns {second : Char} (notReturn : second ≠ '\r')
    (notNewline : second ≠ '\n') (text : List Char) :
    splitPair '\n' second (withReturns text) =
      endedPieces ((splitPair '\n' second text).map withReturns) := by
  have some (rest : List Char) : (splitPair '\n' second rest).map withReturns ≠ [] :=
    mt List.map_eq_nil_iff.mp (splitPair_ne_nil '\n' second rest)
  fun_induction splitPair '\n' second text with
  | case1 => rfl
  | case2 c =>
    by_cases newline : c = '\n'
    · rw [newline]
      rfl
    · rw [withReturns_cons newline]
      exact congrArg (fun piece => [piece]) (withReturns_cons newline []).symm
  | case3 c d rest found inductionHypothesis =>
    simp only [Bool.and_eq_true, beq_iff_eq] at found
    obtain ⟨rfl, rfl⟩ := found
    rw [withReturns_newline, withReturns_cons notNewline, splitPair_cons_of_ne (by decide),
      splitPair, if_pos (by simp), inductionHypothesis, List.map_cons,
      endedPieces_cons _ (some rest)]
    rfl
  | case4 c d rest other inductionHypothesis =>
    by_cases newline : c = '\n'
    · subst newline
      have notHere : ¬(withReturns (d :: rest)).head? = Option.some second := by
        rw [head?_withReturns notReturn notNewline, List.head?_cons, Option.some.injEq]
        rintro rfl
        simp at other
      have onward : splitPair '\n' second ('\n' :: withReturns (d :: rest)) =
          consFirst '\n' (splitPair '\n' second (withReturns (d :: rest))) := by
        cases behind : withReturns (d :: rest) with
        | nil => rfl
        | cons e more =>
          rw [behind, List.head?_cons, Option.some.injEq] at notHere
          rw [splitPair, if_neg (by simp [notHere])]
      rw [withReturns_newline, splitPair_cons_of_ne (by decide), onward, inductionHypothesis,
        consFirst_newline_map_withReturns, consFirst_endedPieces _ (some _),
        consFirst_endedPieces _ (consFirst_ne_nil _ _)]
    · rw [withReturns_cons newline, splitPair_cons_of_ne newline, inductionHypothesis,
        consFirst_endedPieces _ (some _), consFirst_map_withReturns newline]

/-- Every line but the last takes its carriage return along. -/
theorem splitWhere_withReturns (text : List Char) :
    splitWhere (· == '\n') (withReturns text) = endedPieces (splitWhere (· == '\n') text) := by
  induction text with
  | nil => rfl
  | cons c rest inductionHypothesis =>
    have some := splitWhere_ne_nil (· == '\n') rest
    by_cases newline : c = '\n'
    · rw [newline, withReturns_newline, splitWhere, if_neg (by decide), splitWhere,
        if_pos (by decide), inductionHypothesis, splitWhere, if_pos (by decide),
        endedPieces_cons _ some]
      rfl
    · have inside : ¬(c == '\n') = true := by simpa using newline
      rw [withReturns_cons newline, splitWhere, if_neg inside, splitWhere, if_neg inside,
        inductionHypothesis, consFirst_endedPieces _ some]

theorem splitWhere_withReturns_of_inside {separates : Char → Bool}
    (notReturn : separates '\r' = false) (notNewline : separates '\n' = false)
    (text : List Char) :
    splitWhere separates (withReturns text) = (splitWhere separates text).map withReturns := by
  induction text with
  | nil => rfl
  | cons c rest inductionHypothesis =>
    by_cases newline : c = '\n'
    · subst newline
      rw [withReturns_newline, splitWhere, if_neg (by simp [notReturn]), splitWhere,
        if_neg (by simp [notNewline]), splitWhere, if_neg (by simp [notNewline]),
        inductionHypothesis, consFirst_newline_map_withReturns]
    · rw [withReturns_cons newline, splitWhere, splitWhere, inductionHypothesis]
      split
      · rfl
      · rw [consFirst_map_withReturns newline]

end Text

namespace Tag

/-- A tag whose types and description have a carriage return in front of every newline. -/
def addReturns (tag : Tag) : Tag where
  name := tag.name
  types := tag.types.map (List.map Text.addReturns)
  description := tag.description.map Text.addReturns

theorem splitTypes?_withReturns (list : List Char) :
    splitTypes? (Text.withReturns list) = (splitTypes? list).map (List.map Text.addReturns) := by
  have filled : (fun piece : List Char => !piece.isEmpty) ∘ Text.withReturns =
      fun piece => !piece.isEmpty := by
    funext piece
    rw [Function.comp_apply, Bool.eq_iff_iff]
    simp [Text.withReturns_eq_nil_iff]
  have written : String.ofList ∘ Text.withReturns = Text.addReturns ∘ String.ofList := by
    funext piece
    simp [Text.addReturns]
  have trimmed : Text.trimmed ∘ Text.withReturns = Text.withReturns ∘ Text.trimmed :=
    funext Text.trimmed_withReturns
  have cut := @Text.splitWhere_withReturns_of_inside isTypeSeparator (by decide) (by decide) list
  unfold splitTypes?
  simp only [cut, List.map_map, trimmed]
  rw [← List.map_map, List.filter_map, filled, List.map_map, written, ← List.map_map,
    List.isEmpty_map]
  split <;> rfl

theorem dropAtSign_withReturns (text : List Char) :
    dropAtSign (Text.withReturns text) = Text.withReturns (dropAtSign text) := by
  have sign : '@' ≠ '\n' := by decide
  fun_cases dropAtSign text with
  | case1 c rest named =>
    have other : c ≠ '\n' := by
      rintro rfl
      exact absurd named (by decide)
    rw [Text.withReturns_cons sign, Text.withReturns_cons other, dropAtSign, if_pos named]
  | case2 c rest unnamed =>
    by_cases newline : c = '\n'
    · rw [newline]
      rfl
    · rw [Text.withReturns_cons sign, Text.withReturns_cons newline, dropAtSign, if_neg unnamed]
  | case3 text other =>
    cases text with
    | nil => rfl
    | cons c rest =>
      by_cases newline : c = '\n'
      · rw [newline]
        rfl
      · rw [Text.withReturns_cons newline]
        by_cases opens : c = '@'
        · cases rest with
          | nil => rw [opens]; rfl
          | cons d more => exact absurd (congrArg (· :: d :: more) opens) (other d more)
        · exact dropAtSign_of_ne opens _

theorem braced?_withReturns (text : List Char) :
    braced? (Text.withReturns text) =
      (braced? text).map (Prod.map Text.withReturns Text.withReturns) := by
  have outside : ('\r' != '\x7d') = ('\n' != '\x7d') := by decide
  cases text with
  | nil => rfl
  | cons c rest =>
    by_cases newline : c = '\n'
    · rw [newline]
      rfl
    · rw [Text.withReturns_cons newline]
      by_cases brace : c = '\x7b'
      · subst brace
        unfold braced?
        simp only
        rw [Text.dropWhile_withReturns outside, Text.takeWhile_withReturns outside]
        cases closed : rest.dropWhile (· != '\x7d') with
        | nil => rfl
        | cons d after =>
          have closing : d ≠ '\n' := by
            rintro rfl
            have stops := List.head?_dropWhile_not (· != '\x7d') rest
            rw [closed, List.head?_cons] at stops
            exact absurd stops (by decide)
          rw [Text.withReturns_cons closing]
          rfl
      · rw [braced?_of_ne brace, braced?_of_ne brace]
        rfl

theorem withReturns_takeWhile_isNameChar (text : List Char) :
    Text.withReturns (text.takeWhile isNameChar) = text.takeWhile isNameChar :=
  Text.withReturns_of_free fun member => absurd (List.mem_takeWhile_imp member) (by decide)

/-- A tag is read alike with either line end. -/
theorem read?_withReturns (segment : List Char) :
    read? (String.ofList (Text.withReturns segment)) =
      (read? (String.ofList segment)).map addReturns := by
  unfold read?
  simp only [String.toList_ofList, Text.trimmed_withReturns, dropAtSign_withReturns]
  generalize dropAtSign (Text.trimmed segment) = text
  rw [Text.takeWhile_withReturns (by decide), Text.dropWhile_withReturns (by decide),
    withReturns_takeWhile_isNameChar]
  cases named : text.takeWhile isNameChar with
  | nil => rfl
  | cons c rest =>
    simp only
    rw [Text.trimStart, Text.dropWhile_withReturns (by decide), braced?_withReturns,
      ← Text.trimStart]
    cases braced : braced? (Text.trimStart (text.dropWhile isNameChar)) with
    | none =>
      simp [addReturns, Text.trimmed_withReturns, Text.nonEmpty?_withReturns]
    | some parts =>
      simp [addReturns, Text.trimmed_withReturns, Text.nonEmpty?_withReturns,
        splitTypes?_withReturns]

theorem read?_append_return (segment : List Char) :
    read? (String.ofList (Text.withReturns segment ++ ['\r'])) =
      (read? (String.ofList segment)).map addReturns := by
  refine (read?_congr (congrArg dropAtSign ?_)).trans (read?_withReturns segment)
  rw [Text.trimmed_append_return, Text.trimmed_withReturns]

end Tag

/-! ### Marks -/

namespace Comment

theorem dropOpeningStar_withReturns (text : List Char) :
    dropOpeningStar (Text.withReturns text) = Text.withReturns (dropOpeningStar text) := by
  fun_cases dropOpeningStar text with
  | case1 rest => rw [Text.withReturns_cons (by decide), dropOpeningStar]
  | case2 text unmarked =>
    have opens : ¬(Text.withReturns text).head? = some '*' := by
      rw [Text.head?_withReturns (by decide) (by decide)]
      intro starts
      obtain ⟨rest, rfl⟩ := List.head?_eq_some_iff.mp starts
      exact unmarked rest rfl
    unfold dropOpeningStar
    split
    · rename_i rest starts
      exact absurd (congrArg List.head? starts) opens
    · rfl

theorem dropLineMarker_suffix (line : List Char) : dropLineMarker line <:+ line := by
  have behind : line.dropWhile Text.isInlineBlank <:+ line := List.dropWhile_suffix _
  unfold dropLineMarker
  split
  · rename_i rest marked
    exact ((List.suffix_cons _ _).trans (List.suffix_cons _ _)).trans (marked ▸ behind)
  · rename_i rest notSpaced marked
    exact (List.suffix_cons _ _).trans (marked ▸ behind)
  · exact List.suffix_rfl

/-- A star at the start of a line is found whatever ends the line. -/
theorem dropLineMarker_append_return (line : List Char) :
    dropLineMarker (line ++ ['\r']) = dropLineMarker line ++ ['\r'] := by
  unfold dropLineMarker
  rw [List.dropWhile_append]
  cases behind : line.dropWhile Text.isInlineBlank with
  | nil => rfl
  | cons c rest =>
    rw [if_neg (by simp)]
    by_cases star : c = '*'
    · subst star
      cases rest with
      | nil => rfl
      | cons d more =>
        by_cases space : d = ' '
        · rw [space]
          rfl
        · simp [space]
    · simp [star]

theorem map_dropLineMarker_endedPieces (lines : List (List Char)) :
    (Text.endedPieces lines).map dropLineMarker = Text.endedPieces (lines.map dropLineMarker) := by
  induction lines with
  | nil => rfl
  | cons line rest inductionHypothesis =>
    cases rest with
    | nil => rfl
    | cons next more =>
      rw [Text.endedPieces_cons _ (List.cons_ne_nil _ _), List.map_cons, inductionHypothesis,
        dropLineMarker_append_return]
      exact (Text.endedPieces_cons _ (by simp)).symm

/-- The marks of a comment are found with either line end. -/
theorem stripMarkers_addReturns (raw : String) :
    stripMarkers (Text.addReturns raw) = Text.addReturns (stripMarkers raw) := by
  unfold stripMarkers
  simp only [Text.addReturns, String.toList_ofList, dropOpeningStar_withReturns,
    Text.splitWhere_withReturns, map_dropLineMarker_endedPieces, Text.joinWith_endedPieces,
    Text.withReturns_joinWith]
  have plain : ((Text.splitWhere (· == '\n') (dropOpeningStar raw.toList)).map dropLineMarker).map
      Text.withReturns =
        (Text.splitWhere (· == '\n') (dropOpeningStar raw.toList)).map dropLineMarker := by
    refine (List.map_congr_left fun line isMarked => ?_).trans (List.map_id _)
    obtain ⟨marked, isLine, rfl⟩ := List.mem_map.mp isMarked
    refine Text.withReturns_of_free fun member => ?_
    have inLine := (dropLineMarker_suffix marked).subset member
    exact absurd (Text.not_separates_of_mem_splitWhere isLine _ inLine) (by decide)
  rw [plain]
  rfl

/-! ### Parts -/

theorem tagBlock_addReturns (text : String) :
    tagBlock (Text.addReturns text) = Text.withReturns (tagBlock text) := by
  have sign : '@' ≠ '\r' := by decide
  have line : '@' ≠ '\n' := by decide
  unfold tagBlock
  simp only [Text.addReturns, String.toList_ofList, Text.trimmed_withReturns,
    Text.head?_withReturns sign line]
  generalize Text.trimmed text.toList = body
  split
  · rfl
  · rw [Text.splitPair_withReturns sign line, Text.endedPieces_tail, Text.joinWith_endedPieces,
      ← List.map_tail, Text.withReturns_joinWith]
    rfl

theorem filterMap_read?_endedPieces (pieces : List (List Char)) :
    (Text.endedPieces (pieces.map Text.withReturns)).filterMap
        (fun piece => Tag.read? (String.ofList piece)) =
      (pieces.filterMap fun piece => Tag.read? (String.ofList piece)).map Tag.addReturns := by
  induction pieces with
  | nil => rfl
  | cons piece rest inductionHypothesis =>
    have step {first : List Char} {later : List (List Char)}
        (head : Tag.read? (String.ofList first) =
          (Tag.read? (String.ofList piece)).map Tag.addReturns)
        (tail : later.filterMap (fun piece => Tag.read? (String.ofList piece)) =
          (rest.filterMap fun piece => Tag.read? (String.ofList piece)).map Tag.addReturns) :
        (first :: later).filterMap (fun piece => Tag.read? (String.ofList piece)) =
          ((piece :: rest).filterMap fun piece => Tag.read? (String.ofList piece)).map
            Tag.addReturns := by
      rw [List.filterMap_cons, List.filterMap_cons, head, tail]
      cases Tag.read? (String.ofList piece) <;> rfl
    cases rest with
    | nil => exact step (Tag.read?_withReturns piece) rfl
    | cons next more =>
      rw [List.map_cons, Text.endedPieces_cons _ (by simp)]
      exact step (Tag.read?_append_return piece) inductionHypothesis

/-- The tags of a comment are the same with either line end. -/
theorem tags_addReturns (text : String) :
    tags (Text.addReturns text) = (tags text).map Tag.addReturns := by
  rw [tags, tagBlock_addReturns, Text.splitPair_withReturns (by decide) (by decide),
    filterMap_read?_endedPieces]
  rfl

theorem freeText?_addReturns (text : String) :
    freeText? (Text.addReturns text) = (freeText? text).map Text.withReturns := by
  have sign : '@' ≠ '\r' := by decide
  have line : '@' ≠ '\n' := by decide
  unfold freeText?
  simp only [Text.addReturns, String.toList_ofList, Text.trimmed_withReturns,
    Text.head?_withReturns sign line]
  generalize Text.trimmed text.toList = body
  split
  · rfl
  · rw [Text.beforePair, Text.beforePair, Text.splitPair_withReturns sign line, Option.map_some]
    obtain ⟨piece, pieces, cut⟩ := List.exists_cons_of_ne_nil (Text.splitPair_ne_nil '\n' '@' body)
    rw [cut, List.headD_cons]
    cases pieces with
    | nil => exact congrArg some (Text.trimmed_withReturns piece)
    | cons next rest => exact congrArg some (Text.trimmed_append_return piece)

end Comment

namespace Evidence

/-- A field is written by the tags of one role alone, with their description. -/
def WrittenBy (read : Evidence → Option String) (role : TagRole) : Prop :=
  ∀ evidence tag, read (evidence.applyTag tag) =
    if TagRole.ofName tag.name = role then tag.description else read evidence

theorem writtenBy_description : WrittenBy description .description := by
  intro evidence tag
  unfold applyTag
  cases TagRole.ofName tag.name with
  | returns =>
    simp only
    split <;> rfl
  | _ => rfl

theorem writtenBy_summary : WrittenBy summary .summary := by
  intro evidence tag
  unfold applyTag
  cases TagRole.ofName tag.name with
  | returns =>
    simp only
    split <;> rfl
  | _ => rfl

section WrittenBy

variable {read : Evidence → Option String} {role : TagRole} (written : WrittenBy read role)

include written

theorem WrittenBy.foldl_map_addReturns (tags : List Tag) {evidence returned : Evidence}
    (same : read returned = (read evidence).map Text.addReturns) :
    read ((tags.map Tag.addReturns).foldl applyTag returned) =
      (read (tags.foldl applyTag evidence)).map Text.addReturns := by
  induction tags generalizing evidence returned with
  | nil => exact same
  | cons tag rest inductionHypothesis =>
    refine inductionHypothesis ?_
    rw [written, written, same]
    exact (apply_ite _ _ _ _).symm

theorem WrittenBy.ofTags_map_addReturns (silent : read empty = none) (tags : List Tag) :
    read (ofTags (tags.map Tag.addReturns)) = (read (ofTags tags)).map Text.addReturns :=
  written.foldl_map_addReturns tags (by rw [silent]; rfl)

theorem WrittenBy.exists_tag {tags : List Tag} {evidence : Evidence} {text : String}
    (found : read (tags.foldl applyTag evidence) = some text) :
    read evidence = some text ∨ ∃ tag ∈ tags, tag.description = some text := by
  induction tags generalizing evidence with
  | nil => exact Or.inl found
  | cons tag rest inductionHypothesis =>
    rcases inductionHypothesis found with here | ⟨later, member, described⟩
    · rw [written] at here
      split at here
      · exact Or.inr ⟨tag, List.mem_cons_self, here⟩
      · exact Or.inl here
    · exact Or.inr ⟨later, List.mem_cons_of_mem _ member, described⟩

/-- What the tags of a comment write in a field stands in the comment. -/
theorem WrittenBy.mem_of_tags (silent : read empty = none) {comment text : String}
    (found : read (ofTags (Comment.tags comment)) = some text) :
    ∀ c ∈ text.toList, c ∈ comment.toList := by
  rcases written.exists_tag found with nothing | ⟨tag, isTag, described⟩
  · rw [silent] at nothing
    cases nothing
  · exact Comment.mem_of_mem_tagDescription isTag described

end WrittenBy

theorem description_ofComment (text : String) :
    (ofComment text).description =
      (ofTags (Comment.tags text)).description.or ((Comment.freeText? text).map String.ofList) := by
  rw [ofComment_eq]
  cases Comment.freeText? text <;> rfl

theorem summary_ofComment (text : String) :
    (ofComment text).summary = (ofTags (Comment.tags text)).summary.or
      ((Comment.freeText? text).map fun free =>
        String.ofList (Text.beforePair '\n' '\n' free)) := by
  rw [ofComment_eq]
  cases Comment.freeText? text <;> rfl

theorem description_addReturns (text : String) :
    (ofComment (Text.addReturns text)).description =
      (ofComment text).description.map Text.addReturns := by
  rw [description_ofComment, description_ofComment, Comment.tags_addReturns,
    writtenBy_description.ofTags_map_addReturns rfl, Comment.freeText?_addReturns, Option.map_or,
    Option.map_map, Option.map_map]
  congr 2
  funext free
  simp [Text.addReturns]

/-- With carriage returns no line is empty, and all the free text of a comment is its summary. -/
theorem summary_addReturns (text : String) :
    (ofComment (Text.addReturns text)).summary =
      ((ofTags (Comment.tags text)).summary.or
        ((Comment.freeText? text).map String.ofList)).map Text.addReturns := by
  rw [summary_ofComment, Comment.tags_addReturns, writtenBy_summary.ofTags_map_addReturns rfl,
    Comment.freeText?_addReturns, Option.map_or, Option.map_map, Option.map_map]
  congr 2
  funext free
  simp [Text.addReturns, Text.beforePair_withReturns]

theorem mem_of_description_ofComment {comment text : String}
    (found : (ofComment comment).description = some text) :
    ∀ c ∈ text.toList, c ∈ comment.toList := by
  rw [description_ofComment, Option.or_eq_some_iff] at found
  rcases found with tagged | ⟨-, free?⟩
  · exact writtenBy_description.mem_of_tags rfl tagged
  · obtain ⟨free, isFree, rfl⟩ := Option.map_eq_some_iff.mp free?
    rw [String.toList_ofList]
    exact fun c member => Comment.mem_of_mem_freeText isFree member

/-- But for the carriage returns, the marks of a comment and its description are the same with
either line end. The summary is the same exactly if a tag writes it or the free text is of one
paragraph. -/
theorem line_ends_agree_iff {text : String} (plain : '\r' ∉ text.toList) :
    Comment.stripMarkers (Text.addReturns text) = Text.addReturns (Comment.stripMarkers text) ∧
      (ofComment (Text.addReturns text)).description.map Text.dropReturns =
        (ofComment text).description ∧
      ((ofComment (Text.addReturns text)).summary.map Text.dropReturns = (ofComment text).summary ↔
        (ofTags (Comment.tags text)).summary.isSome = true ∨
          ∀ free, Comment.freeText? text = some free → ¬['\n', '\n'] <:+: free) := by
  have plainText {found : String} (inside : ∀ c ∈ found.toList, c ∈ text.toList) :
      Text.dropReturns (Text.addReturns found) = found :=
    Text.dropReturns_addReturns fun member => plain (inside _ member)
  refine ⟨Comment.stripMarkers_addReturns text, ?_, ?_⟩
  · rw [description_addReturns, Option.map_map]
    cases described : (ofComment text).description with
    | none => rfl
    | some found => exact congrArg some (plainText (mem_of_description_ofComment described))
  · rw [summary_addReturns, summary_ofComment, Option.map_map]
    cases tagged : (ofTags (Comment.tags text)).summary with
    | some found =>
      refine iff_of_true ?_ (Or.inl rfl)
      exact congrArg some (plainText (writtenBy_summary.mem_of_tags rfl tagged))
    | none =>
      cases isFree : Comment.freeText? text with
      | none => exact iff_of_true rfl (Or.inr nofun)
      | some free =>
        have kept : Text.dropReturns (Text.addReturns (String.ofList free)) = String.ofList free :=
          plainText fun c member => Comment.mem_of_mem_freeText isFree (by simpa using member)
        have oneParagraph : some (String.ofList free) =
            some (String.ofList (Text.beforePair '\n' '\n' free)) ↔ ¬['\n', '\n'] <:+: free := by
          rw [Option.some.injEq, String.ofList_inj, eq_comm, Text.beforePair_eq_self_iff]
        simp [kept, oneParagraph]

theorem line_ends_agree_iff_oneParagraph :
    '\r' ∉ "Grows\nthe tree.\n@see Tree".toList ∧
      (ofComment (Text.addReturns "Grows\nthe tree.\n@see Tree")).description.map
          Text.dropReturns = some "Grows\nthe tree." ∧
      (ofComment (Text.addReturns "Grows\nthe tree.\n@see Tree")).summary.map
          Text.dropReturns = some "Grows\nthe tree." := by
  have plain : '\r' ∉ "Grows\nthe tree.\n@see Tree".toList := by decide
  have free : Comment.freeText? "Grows\nthe tree.\n@see Tree" =
      some "Grows\nthe tree.".toList := by decide
  obtain ⟨-, description, summary⟩ := line_ends_agree_iff plain
  refine ⟨plain, description.trans (by decide), Eq.trans (summary.mpr (Or.inr ?_)) (by decide)⟩
  intro other isFree
  obtain rfl := Option.some.inj (free.symm.trans isFree)
  exact Text.beforePair_eq_self_iff.mp (by decide)

/-- A blank line ends the summary only where the lines end with a newline alone. -/
theorem line_ends_matter_blankLine :
    '\r' ∉ "a\n\nb".toList ∧ (ofComment "a\n\nb").summary = some "a" ∧
      (ofComment (Text.addReturns "a\n\nb")).summary.map Text.dropReturns = some "a\n\nb" := by
  decide

end Evidence

end DocEntities
