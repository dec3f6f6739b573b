/-
This file says what the parsers of elements read. They go from place to place in the source and
not from token to token, so what they read lies in the stretch between two places; only the
expressions in braces are read by a cursor that is sought for them.
-/

import DocEntities.Proofs.Script.Expression

namespace DocEntities.Script

open Outline

variable {source : List Char} {low : Nat} {parts : List Part} {spot last : Spot}
  {cursor behind : Cursor}

namespace ReadsElement

theorem mono (read : ReadsElement source spot.offset parts last cursor)
    (ordered : low ≤ spot.offset) : ReadsElement source low parts last cursor where
  isOf := read.isOf
  spotOf := read.spotOf
  progress := Nat.lt_of_le_of_lt ordered read.progress
  spans := read.spans.mono ordered (Nat.le_refl _)

theorem append {more : List Part} (read : ReadsElement source low parts spot cursor)
    (next : ReadsElement source spot.offset more last behind) :
    ReadsElement source low (parts ++ more) last behind where
  isOf := next.isOf
  spotOf := next.spotOf
  progress := Nat.lt_trans read.progress next.progress
  spans := (read.spans.append next.spans).congr fun depth =>
    marks_ofParts_append parts more depth

/-- Characters that hold no expression. -/
theorem advance {count : Nat} (isOf : cursor.Of source) (spotOf : spot.Of source)
    (ordered : low ≤ spot.offset) (some : 0 < count) (more : spot.rest ≠ []) :
    ReadsElement source low [] (spot.advance count) cursor where
  isOf := isOf
  spotOf := spotOf.advance count
  progress := Nat.lt_of_le_of_lt ordered (Spot.lt_offset_advance some more)
  spans := .nil (Nat.le_trans ordered (Spot.le_offset_advance count spot))

/-- Parts that have been read by a cursor, up to the end of the token that it stands on. -/
theorem ofReads (reads : Reads source low (ofParts parts) cursor)
    (more : cursor.token ≠ .done) : ReadsElement source low parts cursor.after cursor where
  isOf := reads.isOf
  spotOf := reads.isOf.after
  progress := Nat.lt_of_le_of_lt reads.spans.ordered (reads.isOf.taken more)
  spans := reads.spans.mono (Nat.le_refl _) reads.isOf.ordered

end ReadsElement

namespace Grammar

open DocEntities.Script.Parser

variable {below : Grammar}

theorem ends_behindGap {α : Type} {parser : Spot → Parser α} {post : α → Cursor → Prop}
    (isOf : cursor.Of source) (spotOf : spot.Of source)
    (later : ∀ found middle, middle.Of source → found.Of source → spot.offset ≤ found.offset →
      Ends (parser found) middle post) : Ends (behindGap spot >>= parser) cursor post := by
  have passes : Ends (behindGap spot) cursor fun found middle =>
      middle.Of source ∧ found.Of source ∧ spot.offset ≤ found.offset := by
    unfold behindGap
    refine .get (ends_given fun gap passed => ?_)
    obtain ⟨gapOf, ordered⟩ := Gap.pass_of spotOf passed
    rintro _ _ ⟨⟩
    exact ⟨⟨isOf.here, isOf.after, isOf.ordered, isOf.taken⟩, gapOf, ordered⟩
  exact passes.bind fun found middle ⟨middleOf, foundOf, ordered⟩ =>
    later found middle middleOf foundOf ordered

theorem reads_bracedPart (sound : below.Sound source) (context : Context)
    (spotOf : spot.Of source) :
    Ends (below.bracedPart context spot) cursor fun found =>
      ReadsElement source spot.offset found.1 found.2 := by
  unfold bracedPart
  refine (reads_seek spotOf).bind fun _ _ sought => ?_
  refine ends_atSign (.ite (fun isSign => ?_) fun _ => ?_)
  · exact .get (.pure (.ofReads sought (Token.ne_done_of_isSign isSign)))
  refine (reads_takeSign "..." sought.isOf).bind fun _ _ dots => ?_
  refine (sound.expression _ _ dots.isOf).bind fun expr _ read => ?_
  refine ends_atSign (.ite (fun isSign => .get (.pure ?_)) fun _ => .failure)
  exact .ofReads ((sought.close dots).follow read.reads).ofPart (Token.ne_done_of_isSign isSign)

theorem reads_spreadAttributes (sound : below.Sound source) (context : Context)
    (spotOf : spot.Of source) :
    Ends (below.spreadAttributes context spot) cursor fun found =>
      ReadsElement source spot.offset found.1 found.2 := by
  unfold spreadAttributes
  refine (reads_seek spotOf).bind fun _ _ sought => ?_
  refine (reads_sign "..." sought.isOf).bind fun _ _ dots => ?_
  refine (sound.assignment _ _ dots.isOf).bind fun expr _ read => ?_
  refine ends_atSign (.ite (fun isSign => .get (.pure ?_)) fun _ => .failure)
  exact .ofReads ((sought.close dots.weaken).follow read.reads).ofPart
    (Token.ne_done_of_isSign isSign)

theorem reads_attributeValue (sound : below.Sound source) (context : Context)
    (isOf : cursor.Of source) (spotOf : spot.Of source) :
    Ends (below.attributeValue context spot) cursor fun found =>
      ReadsElement source spot.offset found.1 found.2 := by
  unfold attributeValue
  split
  · refine (reads_bracedPart sound context (spotOf.advance 1)).bind fun found _ read => ?_
    split
    · exact .failure
    · exact .pure (read.mono (Spot.le_offset_advance 1 spot))
  · exact sound.element _ _ _ isOf spotOf
  · rename_i rest
    refine .ite (fun _ => .ite (fun _ => .pure ?_) fun _ => .failure) fun _ => .failure
    exact .advance isOf spotOf (Nat.le_refl _) (Nat.succ_pos _) (by simp [rest])
  · exact .failure

theorem reads_attributesHere (sound : below.Sound source) (context : Context)
    (isOf : cursor.Of source) (spotOf : spot.Of source) :
    Ends (below.attributesHere context spot) cursor fun found =>
      ReadsElement source spot.offset found.1 found.2.2 := by
  -- What has been read of the attributes, and the rest of them.
  have more {parts : List Part} {middle : Spot} {between : Cursor}
      (read : ReadsElement source spot.offset parts middle between) :
      Ends (below.attributes context middle >>= fun found =>
        Pure.pure (parts ++ found.1, found.2.1, found.2.2)) between fun found =>
          ReadsElement source spot.offset found.1 found.2.2 :=
    (sound.attributes _ _ _ read.isOf read.spotOf).bind fun _ _ later => .pure (read.append later)
  unfold attributesHere
  refine ends_behindGap isOf spotOf fun found _ middleOf foundOf ordered => ?_
  split
  · rename_i rest
    exact .pure (.advance middleOf foundOf ordered Nat.one_pos (by simp [rest]))
  · refine ends_behindGap middleOf (foundOf.advance 1) fun close _ middleOf closeOf later => ?_
    refine .ite (fun closed => .pure ?_) fun _ => .failure
    have step := Nat.le_trans ordered (Nat.le_trans (Spot.le_offset_advance 1 found) later)
    exact .advance middleOf closeOf step Nat.one_pos fun ended => by simp [ended] at closed
  · refine (reads_spreadAttributes sound context (foundOf.advance 1)).bind fun parts _ read => ?_
    exact more (read.mono (Nat.le_trans ordered (Spot.le_offset_advance 1 found)))
  · refine .ite (fun _ => .failure) fun _ => ?_
    refine ends_behindGap middleOf (foundOf.advance _) fun equals _ middleOf equalsOf later => ?_
    have step := Nat.le_trans ordered (Nat.le_trans (Spot.le_offset_advance _ found) later)
    refine .ite (fun _ => ?_) fun _ => ?_
    · refine ends_behindGap middleOf (equalsOf.advance 1) fun value _ middleOf valueOf later => ?_
      refine (reads_attributeValue sound context middleOf valueOf).bind fun parts _ read => ?_
      have behindSign := Nat.le_trans (Spot.le_offset_advance 1 equals) later
      exact more (read.mono (Nat.le_trans step behindSign))
    · exact (sound.attributes _ _ _ middleOf equalsOf).mono fun _ _ read => read.mono step

theorem reads_childrenHere (sound : below.Sound source) (context : Context) (tag : List Char)
    (isOf : cursor.Of source) (spotOf : spot.Of source) :
    Ends (below.childrenHere context tag spot) cursor fun found =>
      ReadsElement source spot.offset found.1 found.2 := by
  have more {parts : List Part} {middle : Spot} {between : Cursor}
      (read : ReadsElement source spot.offset parts middle between) :
      Ends (below.children context tag middle >>= fun found =>
        Pure.pure (parts ++ found.1, found.2)) between fun found =>
          ReadsElement source spot.offset found.1 found.2 :=
    (sound.children _ _ _ _ read.isOf read.spotOf).bind fun _ _ later => .pure (read.append later)
  unfold childrenHere
  simp only
  generalize (spot.rest.takeWhile fun c => c != '\x7b' && c != '<').length = count
  have ordered := Spot.le_offset_advance count spot
  have foundOf := spotOf.advance count
  generalize spot.advance count = found at ordered foundOf
  split
  · refine (reads_bracedPart sound context (foundOf.advance 1)).bind fun parts _ read => ?_
    exact more (read.mono (Nat.le_trans ordered (Spot.le_offset_advance 1 found)))
  · refine ends_behindGap isOf (foundOf.advance 1) fun inside _ middleOf insideOf later => ?_
    refine .ite (fun _ => ?_) fun _ => ?_
    · have step := Nat.le_trans ordered (Nat.le_trans (Spot.le_offset_advance 1 found) later)
      refine ends_behindGap middleOf (insideOf.advance 1) fun named _ middleOf namedOf later => ?_
      have step := Nat.le_trans step (Nat.le_trans (Spot.le_offset_advance 1 inside) later)
      refine ends_behindGap middleOf (namedOf.advance _) fun close _ middleOf closeOf later => ?_
      have step := Nat.le_trans step (Nat.le_trans (Spot.le_offset_advance _ named) later)
      refine .ite (fun closed => .pure ?_) fun _ => .failure
      exact .advance middleOf closeOf step Nat.one_pos fun ended => by simp [ended] at closed
    · refine (sound.element _ _ _ middleOf foundOf).bind fun parts _ read => ?_
      exact more (read.mono ordered)
  · exact .failure

theorem reads_elementHere (sound : below.Sound source) (context : Context)
    (isOf : cursor.Of source) (spotOf : spot.Of source) :
    Ends (below.elementHere context spot) cursor fun found =>
      ReadsElement source spot.offset found.1 found.2 := by
  unfold elementHere
  refine ends_behindGap isOf (spotOf.advance 1) fun found _ middleOf foundOf later => ?_
  have ordered := Nat.le_trans (Spot.le_offset_advance 1 spot) later
  refine .ite (fun _ => .failure) fun _ => ?_
  refine (sound.attributes _ _ _ middleOf (foundOf.advance _)).bind fun parts _ read => ?_
  have opening := read.mono (Nat.le_trans ordered (Spot.le_offset_advance _ found))
  refine .ite (fun _ => .pure opening) fun _ => ?_
  exact (sound.children _ _ _ _ opening.isOf opening.spotOf).bind fun _ _ rest =>
    .pure (opening.append rest)

end Grammar

end DocEntities.Script
