/-
This file proves what cutting, joining and trimming do to texts. A cut at a character is the
library's `splitOnP` and a join is its `intercalate`, so their laws are taken from there. A cut
at two characters in a row has none there: the two are different characters wherever their
order matters, so two occurrences never overlap, and a cut of a text put together from pieces
is the pieces again.
-/

import DocEntities.Text.Space
import DocEntities.Text.Split
import Mathlib.Data.List.Basic
import Mathlib.Data.List.DropRight

namespace DocEntities.Text

/-! ### Cuts at one character -/

theorem splitWhere_eq_splitOnP (separates : Char → Bool) (text : List Char) :
    splitWhere separates text = text.splitOnP separates := by
  induction text with
  | nil => rw [splitWhere, List.splitOnP_nil]
  | cons c rest inductionHypothesis =>
    rw [splitWhere, List.splitOnP_cons_eq_if_modifyHead, inductionHypothesis]
    by_cases separator : separates c = true
    · rw [if_pos separator, if_pos separator]
    · rw [if_neg separator, if_neg separator]
      obtain ⟨piece, pieces, cut⟩ :=
        List.exists_cons_of_ne_nil (List.splitOnP_ne_nil separates rest)
      rw [cut, consFirst, List.modifyHead_cons]

theorem splitWhere_ne_nil (separates : Char → Bool) (text : List Char) :
    splitWhere separates text ≠ [] := by
  rw [splitWhere_eq_splitOnP]
  exact List.splitOnP_ne_nil separates text

theorem joinWith_eq_intercalate (separator : List Char) (pieces : List (List Char)) :
    joinWith separator pieces = separator.intercalate pieces := by
  induction pieces with
  | nil => rw [joinWith, List.intercalate_nil]
  | cons piece rest inductionHypothesis =>
    cases rest with
    | nil => rw [joinWith, List.intercalate_singleton]
    | cons next more => rw [joinWith, inductionHypothesis, List.intercalate_cons_cons]; simp

theorem joinWith_cons (separator piece : List Char) {pieces : List (List Char)}
    (some : pieces ≠ []) :
    joinWith separator (piece :: pieces) = piece ++ separator ++ joinWith separator pieces := by
  obtain ⟨next, rest, rfl⟩ := List.exists_cons_of_ne_nil some
  rfl

theorem join_concat (separator : String) {pieces : List String} (some : pieces ≠ [])
    (last : String) :
    join separator (pieces ++ [last]) = join separator pieces ++ separator ++ last := by
  induction pieces with
  | nil => exact absurd rfl some
  | cons piece rest inductionHypothesis =>
    cases rest with
    | nil => rfl
    | cons next more =>
      show piece ++ separator ++ join separator (next :: more ++ [last]) =
        piece ++ separator ++ join separator (next :: more) ++ separator ++ last
      rw [inductionHypothesis (List.cons_ne_nil _ _)]
      simp only [String.append_assoc]

theorem joinWith_append (separator : List Char) {pieces more : List (List Char)}
    (some : pieces ≠ []) (someMore : more ≠ []) :
    joinWith separator (pieces ++ more) =
      joinWith separator pieces ++ separator ++ joinWith separator more := by
  induction pieces with
  | nil => exact absurd rfl some
  | cons piece rest inductionHypothesis =>
    cases rest with
    | nil => exact joinWith_cons separator piece someMore
    | cons next later =>
      have whole := joinWith_cons separator piece (List.cons_ne_nil next later)
      have front := joinWith_cons separator piece
        (List.append_ne_nil_of_left_ne_nil (List.cons_ne_nil next later) more)
      rw [List.cons_append, front, inductionHypothesis (List.cons_ne_nil _ _), whole]
      simp only [List.append_assoc]

theorem mem_joinWith {separator : List Char} {pieces : List (List Char)} {c : Char}
    (member : c ∈ joinWith separator pieces) : c ∈ separator ∨ ∃ piece ∈ pieces, c ∈ piece := by
  induction pieces with
  | nil => cases member
  | cons piece rest inductionHypothesis =>
    cases rest with
    | nil => exact Or.inr ⟨piece, List.mem_singleton_self piece, member⟩
    | cons next more =>
      rw [joinWith_cons _ _ (List.cons_ne_nil _ _), List.append_assoc, List.mem_append,
        List.mem_append] at member
      rcases member with inside | between | later
      · exact Or.inr ⟨piece, List.mem_cons_self, inside⟩
      · exact Or.inl between
      · exact (inductionHypothesis later).imp_right fun ⟨other, member, inside⟩ =>
          ⟨other, List.mem_cons_of_mem _ member, inside⟩

/-- A cut at a separator parts the cuts of what stands around it. -/
theorem mem_joinWith_of_mem (separator : List Char) {pieces : List (List Char)} {piece : List Char}
    (isPiece : piece ∈ pieces) {c : Char} (member : c ∈ piece) : c ∈ joinWith separator pieces := by
  induction pieces with
  | nil => cases isPiece
  | cons first rest inductionHypothesis =>
    cases rest with
    | nil => exact List.mem_singleton.mp isPiece ▸ member
    | cons next more =>
      rw [joinWith_cons _ _ (List.cons_ne_nil _ _), List.mem_append, List.mem_append]
      rcases List.mem_cons.mp isPiece with rfl | later
      · exact Or.inl (Or.inl member)
      · exact Or.inr (inductionHypothesis later)

theorem splitWhere_append_cons {separates : Char → Bool} {c : Char} (separator : separates c = true)
    (before after : List Char) :
    splitWhere separates (before ++ c :: after) =
      splitWhere separates before ++ splitWhere separates after := by
  rw [splitWhere_eq_splitOnP, List.splitOnP_append_cons before after separator,
    ← splitWhere_eq_splitOnP, ← splitWhere_eq_splitOnP]

theorem splitWhere_beq_append_cons (c : Char) (before after : List Char) :
    splitWhere (· == c) (before ++ c :: after) =
      splitWhere (· == c) before ++ splitWhere (· == c) after :=
  @splitWhere_append_cons (· == c) c (beq_self_eq_true c) before after

theorem splitWhere_of_free {separates : Char → Bool} {text : List Char}
    (free : ∀ c ∈ text, separates c = false) : splitWhere separates text = [text] := by
  rw [splitWhere_eq_splitOnP, List.splitOnP_eq_singleton free]

/-- Pieces without a separator, joined by one, are cut into the same pieces. -/
theorem splitWhere_joinWith {separates : Char → Bool} {c : Char} (separator : separates c = true)
    {pieces : List (List Char)} (some : pieces ≠ [])
    (free : ∀ piece ∈ pieces, ∀ d ∈ piece, separates d = false) :
    splitWhere separates (joinWith [c] pieces) = pieces := by
  induction pieces with
  | nil => exact absurd rfl some
  | cons piece rest inductionHypothesis =>
    have alone : splitWhere separates piece = [piece] :=
      splitWhere_of_free (free piece List.mem_cons_self)
    cases rest with
    | nil => rw [joinWith, alone]
    | cons next more =>
      have later := inductionHypothesis (List.cons_ne_nil _ _)
        fun other member => free other (List.mem_cons_of_mem _ member)
      rw [joinWith_cons _ _ (List.cons_ne_nil _ _), List.append_assoc, List.singleton_append,
        splitWhere_append_cons separator, alone, later, List.singleton_append]

theorem splitWhere_beq_joinWith (c : Char) {pieces : List (List Char)} (some : pieces ≠ [])
    (free : ∀ piece ∈ pieces, ∀ d ∈ piece, (d == c) = false) :
    splitWhere (· == c) (joinWith [c] pieces) = pieces :=
  @splitWhere_joinWith (· == c) c (beq_self_eq_true c) pieces some free

theorem not_separates_of_mem_splitWhere {separates : Char → Bool} {text piece : List Char}
    (member : piece ∈ splitWhere separates text) : ∀ c ∈ piece, separates c = false := by
  induction text generalizing piece with
  | nil =>
    rw [splitWhere, List.mem_singleton] at member
    simp [member]
  | cons c rest inductionHypothesis =>
    rw [splitWhere] at member
    split at member
    · rcases List.mem_cons.mp member with rfl | later
      · simp
      · exact inductionHypothesis later
    · rename_i notSeparator
      obtain ⟨first, pieces, cut⟩ :=
        List.exists_cons_of_ne_nil (splitWhere_ne_nil separates rest)
      rw [cut, consFirst] at member
      rcases List.mem_cons.mp member with rfl | later
      · refine List.forall_mem_cons.mpr ⟨Bool.not_eq_true _ ▸ notSeparator, ?_⟩
        exact inductionHypothesis (cut ▸ List.mem_cons_self)
      · exact inductionHypothesis (cut ▸ List.mem_cons_of_mem _ later)

theorem mem_of_mem_splitWhere {separates : Char → Bool} {text piece : List Char} {c : Char}
    (member : piece ∈ splitWhere separates text) (inside : c ∈ piece) : c ∈ text := by
  induction text generalizing piece with
  | nil =>
    rw [splitWhere, List.mem_singleton] at member
    exact member ▸ inside
  | cons d rest inductionHypothesis =>
    rw [splitWhere] at member
    split at member
    · rcases List.mem_cons.mp member with rfl | later
      · cases inside
      · exact List.mem_cons_of_mem _ (inductionHypothesis later inside)
    · obtain ⟨first, pieces, cut⟩ :=
        List.exists_cons_of_ne_nil (splitWhere_ne_nil separates rest)
      rw [cut, consFirst] at member
      rcases List.mem_cons.mp member with rfl | later
      · rcases List.mem_cons.mp inside with rfl | inFirst
        · exact List.mem_cons_self
        · exact List.mem_cons_of_mem _ (inductionHypothesis (cut ▸ List.mem_cons_self) inFirst)
      · exact List.mem_cons_of_mem _
          (inductionHypothesis (cut ▸ List.mem_cons_of_mem _ later) inside)

/-- Cutting at a character and joining with it gives the text back. -/
theorem joinWith_splitWhere (c : Char) (text : List Char) :
    joinWith [c] (splitWhere (· == c) text) = text := by
  rw [joinWith_eq_intercalate, splitWhere_eq_splitOnP, ← List.splitOn_eq_splitOnP,
    List.intercalate_splitOn]

/-! ### Cuts at two characters in a row -/

theorem splitPair_ne_nil (first second : Char) (text : List Char) :
    splitPair first second text ≠ [] := by
  fun_cases splitPair first second text with
  | case4 c d rest other =>
    unfold consFirst
    split <;> exact List.cons_ne_nil _ _
  | _ => exact List.cons_ne_nil _ _

theorem consFirst_append (c : Char) {pieces : List (List Char)} (some : pieces ≠ [])
    (more : List (List Char)) : consFirst c (pieces ++ more) = consFirst c pieces ++ more := by
  obtain ⟨piece, rest, rfl⟩ := List.exists_cons_of_ne_nil some
  rfl

/-- A cut at two different characters parts the cuts of what stands around them. -/
theorem splitPair_append {first second : Char} (different : first ≠ second)
    (before after : List Char) :
    splitPair first second (before ++ first :: second :: after) =
      splitPair first second before ++ splitPair first second after := by
  fun_induction splitPair first second before with
  | case1 => simp [splitPair]
  | case2 c => simp [splitPair, consFirst, different]
  | case3 c d rest found inductionHypothesis =>
    rw [List.cons_append, List.cons_append, splitPair, if_pos found, inductionHypothesis,
      List.cons_append]
  | case4 c d rest other inductionHypothesis =>
    rw [List.cons_append, List.cons_append, splitPair, if_neg other, ← List.cons_append,
      inductionHypothesis, consFirst_append _ (splitPair_ne_nil _ _ _)]

/-- A text in which the two characters never stand in a row is one piece. -/
theorem splitPair_of_free {first second : Char} {text : List Char}
    (free : ¬[first, second] <:+: text) : splitPair first second text = [text] := by
  fun_induction splitPair first second text with
  | case1 => rfl
  | case2 c => rfl
  | case3 c d rest found inductionHypothesis =>
    simp only [Bool.and_eq_true, beq_iff_eq] at found
    obtain ⟨rfl, rfl⟩ := found
    exact absurd (List.prefix_append [c, d] rest).isInfix free
  | case4 c d rest other inductionHypothesis =>
    rw [inductionHypothesis fun inside => free (inside.trans (List.suffix_cons c _).isInfix),
      consFirst]

/-- Pieces behind occurrences of the two characters are cut one by one. -/
theorem splitPair_append_flatMap {first second : Char} (different : first ≠ second)
    {before : List Char} {pieces : List (List Char)} (freeBefore : ¬[first, second] <:+: before)
    (free : ∀ piece ∈ pieces, ¬[first, second] <:+: piece) :
    splitPair first second (before ++ pieces.flatMap (fun piece => first :: second :: piece)) =
      before :: pieces := by
  induction pieces generalizing before with
  | nil => rw [List.flatMap_nil, List.append_nil, splitPair_of_free freeBefore]
  | cons piece rest inductionHypothesis =>
    have later := inductionHypothesis (free piece List.mem_cons_self)
      fun other member => free other (List.mem_cons_of_mem _ member)
    rw [List.flatMap_cons, List.cons_append, List.cons_append, splitPair_append different, later,
      splitPair_of_free freeBefore, List.singleton_append]

theorem joinWith_pair (first second : Char) (piece : List Char) (pieces : List (List Char)) :
    joinWith [first, second] (piece :: pieces) =
      piece ++ pieces.flatMap (fun other => first :: second :: other) := by
  induction pieces generalizing piece with
  | nil => simp [joinWith]
  | cons next rest inductionHypothesis =>
    rw [joinWith_cons _ _ (List.cons_ne_nil _ _), inductionHypothesis, List.flatMap_cons,
      List.append_assoc]
    rfl

theorem splitPair_cons_of_ne {first second c : Char} (different : c ≠ first) (text : List Char) :
    splitPair first second (c :: text) = consFirst c (splitPair first second text) := by
  cases text with
  | nil => rfl
  | cons d rest => rw [splitPair, if_neg (by simp [different])]

/-- Cutting at two characters in a row and joining with them gives the text back. -/
theorem joinWith_splitPair (first second : Char) (text : List Char) :
    joinWith [first, second] (splitPair first second text) = text := by
  fun_induction splitPair first second text with
  | case1 => rfl
  | case2 c => rfl
  | case3 c d rest found inductionHypothesis =>
    simp only [Bool.and_eq_true, beq_iff_eq] at found
    rw [joinWith_cons _ _ (splitPair_ne_nil _ _ _), inductionHypothesis, found.1, found.2]
    rfl
  | case4 c d rest other inductionHypothesis =>
    obtain ⟨piece, pieces, cut⟩ :=
      List.exists_cons_of_ne_nil (splitPair_ne_nil first second (d :: rest))
    rw [cut, joinWith_pair] at inductionHypothesis
    rw [cut, consFirst, joinWith_pair, List.cons_append, inductionHypothesis]

theorem mem_of_mem_splitPair {first second : Char} {text piece : List Char} {c : Char}
    (cut : piece ∈ splitPair first second text) (member : c ∈ piece) : c ∈ text := by
  rw [← joinWith_splitPair first second text]
  exact mem_joinWith_of_mem _ cut member

theorem tail_splitPair_suffix (first second : Char) (text : List Char) :
    joinWith [first, second] (splitPair first second text).tail <:+ text := by
  have whole := joinWith_splitPair first second text
  obtain ⟨piece, pieces, cut⟩ := List.exists_cons_of_ne_nil (splitPair_ne_nil first second text)
  rw [cut] at whole ⊢
  cases pieces with
  | nil => exact List.nil_suffix
  | cons next rest =>
    rw [joinWith_cons _ _ (List.cons_ne_nil _ _)] at whole
    exact ⟨_, whole⟩

/-! ### Starts -/

theorem afterStart?_eq_some_iff {start text rest : List Char} :
    afterStart? start text = some rest ↔ text = start ++ rest := by
  induction start generalizing text with
  | nil => rw [afterStart?, Option.some.injEq, List.nil_append]
  | cons c start inductionHypothesis =>
    cases text with
    | nil => simp [afterStart?]
    | cons d text =>
      rw [afterStart?, List.cons_append, List.cons.injEq, ← inductionHypothesis]
      by_cases same : c = d
      · rw [if_pos (beq_iff_eq.mpr same), and_iff_right same.symm]
      · rw [if_neg (by simpa using same)]
        exact iff_of_false nofun fun both => same both.1.symm

/-- The first occurrence of a character parts a text in one way only. -/
theorem append_cons_eq_append_cons_iff {c : Char} {front other back otherBack : List Char}
    (free : c ∉ front) (otherFree : c ∉ other) :
    front ++ c :: back = other ++ c :: otherBack ↔ front = other ∧ back = otherBack := by
  refine ⟨fun same => ?_, by rintro ⟨rfl, rfl⟩; rfl⟩
  rcases List.append_eq_append_iff.mp same with ⟨between, rfl, rest⟩ | ⟨between, rfl, rest⟩
  all_goals
    cases between with
    | nil => exact ⟨by simp, by simpa [eq_comm] using rest⟩
    | cons d more =>
      obtain ⟨rfl, -⟩ := List.cons.inj rest
      simp at free otherFree

/-- Two texts with a separator each that does not come again are equal piece by piece. -/
theorem append_cons_eq_iff {α : Type} {mark otherMark : α} {front other back otherBack : List α}
    (last : otherMark ∉ back) (otherLast : mark ∉ otherBack) :
    front ++ mark :: back = other ++ otherMark :: otherBack ↔
      front = other ∧ mark = otherMark ∧ back = otherBack := by
  refine ⟨fun equal => ?_, by rintro ⟨rfl, rfl, rfl⟩; rfl⟩
  rcases List.append_eq_append_iff.mp equal with ⟨between, rfl, rest⟩ | ⟨between, rfl, rest⟩
  · cases between with
    | nil =>
      obtain ⟨sameMark, sameBack⟩ := List.cons.inj rest
      exact ⟨(List.append_nil _).symm, sameMark, sameBack⟩
    | cons c more =>
      refine absurd ?_ last
      rw [(List.cons.inj rest).2]
      simp
  · cases between with
    | nil =>
      obtain ⟨sameMark, sameBack⟩ := List.cons.inj rest
      exact ⟨List.append_nil _, sameMark.symm, sameBack.symm⟩
    | cons c more =>
      refine absurd ?_ otherLast
      rw [(List.cons.inj rest).2]
      simp

/-! ### First paragraphs -/

/-- A text runs up to the first occurrence of two characters in a row in another text, or is
all of it if there is none. -/
def RunsUpTo (first second : Char) (text start : List Char) : Prop :=
  (start = text ∧ ¬[first, second] <:+: text) ∨
    ∃ rest, text = start ++ first :: second :: rest ∧ ¬[first, second] <:+: start ++ [first]

theorem runsUpTo_beforePair (first second : Char) (text : List Char) :
    RunsUpTo first second text (beforePair first second text) := by
  unfold beforePair
  fun_induction splitPair first second text with
  | case1 => exact Or.inl ⟨rfl, by simp⟩
  | case2 c => exact Or.inl ⟨rfl, fun inside => absurd inside.length_le (by simp)⟩
  | case3 c d rest found inductionHypothesis =>
    simp only [Bool.and_eq_true, beq_iff_eq] at found
    obtain ⟨rfl, rfl⟩ := found
    exact Or.inr ⟨rest, rfl, fun inside => absurd inside.length_le (by simp)⟩
  | case4 c d rest other inductionHypothesis =>
    obtain ⟨piece, pieces, cut⟩ :=
      List.exists_cons_of_ne_nil (splitPair_ne_nil first second (d :: rest))
    rw [cut] at inductionHypothesis ⊢
    have notHere : ∀ later, ¬[first, second] <+: c :: d :: later := by
      intro later starts
      simp only [List.cons_prefix_cons] at starts
      simp [starts.1, starts.2.1] at other
    rcases inductionHypothesis with ⟨rfl, free⟩ | ⟨behind, text, free⟩
    · exact Or.inl ⟨rfl, fun inside => (List.infix_cons_iff.mp inside).elim (notHere rest) free⟩
    · refine Or.inr ⟨behind, by rw [text]; rfl, fun inside => ?_⟩
      have continues : ∃ later, piece ++ [first] = d :: later := by
        cases piece with
        | nil => exact ⟨[], by rw [(List.cons.inj text).1]; rfl⟩
        | cons e more => exact ⟨more ++ [first], by rw [(List.cons.inj text).1]; rfl⟩
      obtain ⟨later, same⟩ := continues
      rcases List.infix_cons_iff.mp inside with starts | inside
      · exact notHere later (same ▸ starts)
      · exact free inside

theorem beforePair_eq_self_iff {first second : Char} {text : List Char} :
    beforePair first second text = text ↔ ¬[first, second] <:+: text := by
  rcases runsUpTo_beforePair first second text with ⟨all, free⟩ | ⟨rest, parts, -⟩
  · exact iff_of_true all free
  · refine iff_of_false (fun all => ?_) (not_not.mpr ?_)
    · have lengths := congrArg List.length parts
      rw [all] at lengths
      simp at lengths
    · exact ⟨_, rest, by rw [List.append_assoc]; exact parts.symm⟩

theorem beforePair_prefix (first second : Char) (text : List Char) :
    beforePair first second text <+: text := by
  rcases runsUpTo_beforePair first second text with ⟨all, -⟩ | ⟨rest, parts, -⟩
  · exact ⟨[], by rw [all, List.append_nil]⟩
  · exact ⟨first :: second :: rest, parts.symm⟩

/-! ### Trimming -/

theorem isSpace_of_isInlineBlank {c : Char} (blank : isInlineBlank c = true) :
    isSpace c = true := by
  simp only [isInlineBlank, Bool.or_eq_true, beq_iff_eq] at blank
  rcases blank with rfl | rfl <;> decide

theorem trimStart_append_of_blank {blanks : List Char} (blank : ∀ c ∈ blanks, isSpace c = true)
    (text : List Char) : trimStart (blanks ++ text) = trimStart text := by
  unfold trimStart
  rw [List.dropWhile_append_of_pos blank]

theorem trimEnd_append_of_blank {blanks : List Char} (blank : ∀ c ∈ blanks, isSpace c = true)
    (text : List Char) : trimEnd (text ++ blanks) = trimEnd text := by
  unfold trimEnd
  rw [List.reverse_append,
    List.dropWhile_append_of_pos fun c member => blank c (List.mem_reverse.mp member)]

/-- Trimming stops at the first character that is not blank. -/
theorem trimStart_cons_of_not_blank {c : Char} (dark : isSpace c = false) (rest : List Char) :
    trimStart (c :: rest) = c :: rest :=
  List.dropWhile_cons_of_neg (by rw [dark]; exact Bool.false_ne_true)

/-- Behind a character that is not blank, only the end is trimmed. -/
theorem trimEnd_append_cons {c : Char} (dark : isSpace c = false) (before after : List Char) :
    trimEnd (before ++ c :: after) = before ++ trimEnd (c :: after) := by
  have stops : ((c :: after).reverse ++ before.reverse).dropWhile isSpace =
      (c :: after).reverse.dropWhile isSpace ++ before.reverse := by
    rw [List.dropWhile_append, if_neg]
    have kept : c ∈ (c :: after).reverse.dropWhile isSpace := by
      rw [List.reverse_cons, List.dropWhile_append]
      split
      · rw [List.dropWhile_cons_of_neg (by rw [dark]; exact Bool.false_ne_true)]
        exact List.mem_singleton_self c
      · exact List.mem_append_right _ (List.mem_singleton_self c)
    rw [List.isEmpty_iff]
    exact List.ne_nil_of_mem kept
  unfold trimEnd
  rw [List.reverse_append, stops, List.reverse_append, List.reverse_reverse]

/-- Where something is left of the end of a text, trimming its end leaves its front alone. -/
theorem trimEnd_append {front behind : List Char} (some : trimEnd behind ≠ []) :
    trimEnd (front ++ behind) = front ++ trimEnd behind := by
  unfold trimEnd at some ⊢
  rw [List.reverse_append, List.dropWhile_append, if_neg, List.reverse_append,
    List.reverse_reverse]
  rwa [List.isEmpty_iff, ← List.reverse_eq_nil_iff]

theorem length_trimStart_le (text : List Char) : (trimStart text).length ≤ text.length :=
  (List.dropWhile_suffix _).length_le

theorem length_trimEnd_le (text : List Char) : (trimEnd text).length ≤ text.length := by
  unfold trimEnd
  rw [List.length_reverse, ← @List.length_reverse _ text]
  exact (List.dropWhile_suffix _).length_le

/-- A text that trimming leaves alone opens with a character that is not blank. -/
theorem not_blank_of_trimmed_cons {c : Char} {rest : List Char}
    (same : trimmed (c :: rest) = c :: rest) : isSpace c = false := by
  by_contra blank
  have shorter : trimStart (c :: rest) = trimStart rest :=
    List.dropWhile_cons_of_pos (Bool.not_eq_false _ ▸ blank)
  have length := congrArg List.length same
  rw [trimmed, shorter, List.length_cons] at length
  have := length_trimEnd_le (trimStart rest)
  have := length_trimStart_le rest
  omega

/-- A text that trimming leaves alone keeps its end. -/
theorem trimEnd_of_trimmed {text : List Char} (same : trimmed text = text) :
    trimEnd text = text := by
  cases text with
  | nil => rfl
  | cons c rest =>
    rw [← trimStart_cons_of_not_blank (not_blank_of_trimmed_cons same) rest]
    exact same.trans (trimStart_cons_of_not_blank (not_blank_of_trimmed_cons same) rest).symm

theorem trimmed_cons {c : Char} (dark : isSpace c = false) (rest : List Char) :
    trimmed (c :: rest) = trimEnd (c :: rest) := by
  rw [trimmed, trimStart_cons_of_not_blank dark]

theorem trimmed_blank_append {blanks : List Char} (blank : ∀ c ∈ blanks, isSpace c = true)
    (text : List Char) : trimmed (blanks ++ text) = trimmed text :=
  congrArg trimEnd (trimStart_append_of_blank blank text)

theorem not_blank_of_trimStart_cons {text : List Char} {c : Char} {rest : List Char}
    (start : trimStart text = c :: rest) : isSpace c = false := by
  have again : (c :: rest).dropWhile isSpace = c :: rest :=
    start ▸ List.dropWhile_idempotent isSpace text
  exact Bool.not_eq_true _ ▸ List.dropWhile_eq_self_iff.mp again (Nat.succ_pos _)

/-- In front of a text that opens with a character that is not blank, only the end is trimmed. -/
theorem trimEnd_cons_of_not_blank {c : Char} (dark : isSpace c = false) (rest : List Char) :
    trimEnd (c :: rest) = c :: trimEnd rest := by
  have stays : [c].dropWhile isSpace = [c] :=
    List.dropWhile_cons_of_neg (by rw [dark]; exact Bool.false_ne_true)
  unfold trimEnd
  rw [List.reverse_cons, List.dropWhile_append]
  split
  · rename_i blank
    rw [stays, List.isEmpty_iff.mp blank]
    rfl
  · rw [List.reverse_append]
    rfl

/-- Trimming the end takes off blanks only. -/
theorem exists_eq_trimEnd_append (text : List Char) :
    ∃ blanks, text = trimEnd text ++ blanks ∧ ∀ c ∈ blanks, isSpace c = true := by
  refine ⟨(text.reverse.takeWhile isSpace).reverse, ?_, fun c member => ?_⟩
  · rw [trimEnd, ← List.reverse_append, List.takeWhile_append_dropWhile, List.reverse_reverse]
  · exact List.mem_takeWhile_imp (List.mem_reverse.mp member)

/-- It does not matter which end of a text is trimmed first. -/
theorem trimStart_trimEnd (text : List Char) : trimStart (trimEnd text) = trimmed text := by
  have parts : text = text.takeWhile isSpace ++ trimStart text :=
    List.takeWhile_append_dropWhile.symm
  have blank : ∀ c ∈ text.takeWhile isSpace, isSpace c = true := fun c member =>
    List.mem_takeWhile_imp member
  cases start : trimStart text with
  | nil =>
    have nothing : trimEnd text = [] := by
      rw [parts, start, List.append_nil, ← List.nil_append (List.takeWhile _ _),
        trimEnd_append_of_blank blank]
      rfl
    rw [nothing, trimmed, start]
    rfl
  | cons c rest =>
    have dark : isSpace c = false := not_blank_of_trimStart_cons start
    rw [parts, start, trimEnd_append_cons dark, trimStart_append_of_blank blank,
      trimmed_blank_append blank, trimmed_cons dark, trimEnd_cons_of_not_blank dark,
      trimStart_cons_of_not_blank dark]

theorem trimEnd_trimEnd (text : List Char) : trimEnd (trimEnd text) = trimEnd text := by
  unfold trimEnd
  rw [List.reverse_reverse, List.dropWhile_idempotent]

theorem trimmed_trimmed (text : List Char) : trimmed (trimmed text) = trimmed text := by
  have opens : trimStart (trimEnd (trimStart text)) = trimEnd (trimStart text) := by
    cases start : trimStart text with
    | nil => rfl
    | cons c rest =>
      have dark : isSpace c = false := not_blank_of_trimStart_cons start
      rw [trimEnd_cons_of_not_blank dark, trimStart_cons_of_not_blank dark]
  unfold trimmed
  rw [opens, trimEnd_trimEnd]

theorem trim_ofList_trimmed (text : List Char) :
    trim (String.ofList (trimmed text)) = String.ofList (trimmed text) := by
  rw [trim, String.toList_ofList, trimmed_trimmed]

theorem mem_of_mem_trimmed {text : List Char} {c : Char} (member : c ∈ trimmed text) :
    c ∈ text := by
  have inStart : c ∈ trimStart text :=
    List.mem_reverse.mp ((List.dropWhile_suffix _).subset (List.mem_reverse.mp member))
  exact (List.dropWhile_suffix _).subset inStart

theorem trimmed_toList_of_trim {text : String} (same : trim text = text) :
    trimmed text.toList = text.toList := by
  rw [← @String.toList_ofList (trimmed text.toList)]
  exact congrArg String.toList same

/-- A trimmed string opens with a character that is not blank. -/
theorem exists_cons_of_trim {text : String} (nonempty : text ≠ "") (same : trim text = text) :
    ∃ c rest, text.toList = c :: rest ∧ isSpace c = false := by
  obtain ⟨c, rest, cons⟩ := List.exists_cons_of_ne_nil (mt String.toList_eq_nil_iff.mp nonempty)
  exact ⟨c, rest, cons, not_blank_of_trimmed_cons (cons ▸ trimmed_toList_of_trim same)⟩

/-- A text without a blank is not trimmed. -/
theorem trimEnd_of_solid {text : List Char} (solid : ∀ c ∈ text, isSpace c = false) :
    trimEnd text = text := by
  induction text with
  | nil => rfl
  | cons c rest inductionHypothesis =>
    obtain ⟨dark, later⟩ := List.forall_mem_cons.mp solid
    rw [trimEnd_cons_of_not_blank dark, inductionHypothesis later]

theorem eq_ofList_of_nonEmpty? {text : List Char} {found : String}
    (present : nonEmpty? text = some found) : found = String.ofList text := by
  unfold nonEmpty? at present
  split at present
  · cases present
  · exact (Option.some.inj present).symm

theorem length_trimmed_le (text : List Char) : (trimmed text).length ≤ text.length :=
  (length_trimEnd_le _).trans (length_trimStart_le text)

/-- What does not pass adds nothing to the front that passes. -/
theorem takeWhile_append_of_stops {passes : Char → Bool} {behind : List Char}
    (stops : behind.takeWhile passes = []) (text : List Char) :
    (text ++ behind).takeWhile passes = text.takeWhile passes := by
  induction text with
  | nil => exact stops
  | cons c rest inductionHypothesis =>
    rw [List.cons_append, List.takeWhile_cons, List.takeWhile_cons, inductionHypothesis]

/-! ### Words -/

theorem words_eq_filter_splitWhere (text : List Char) :
    words text = (splitWhere isSpace text).filter (fun piece => !piece.isEmpty) := by
  fun_induction words text with
  | case1 => rfl
  | case2 c rest blank inductionHypothesis =>
    rw [splitWhere, if_pos blank, inductionHypothesis]
    rfl
  | case3 c dark => rw [splitWhere, if_neg dark, splitWhere]; rfl
  | case4 c dark next rest blank inductionHypothesis =>
    rw [splitWhere, if_neg dark, inductionHypothesis, splitWhere, if_pos blank]
    rfl
  | case5 c dark next rest solid nothing inductionHypothesis =>
    obtain ⟨first, pieces, cut⟩ := List.exists_cons_of_ne_nil (splitWhere_ne_nil isSpace rest)
    rw [nothing, splitWhere, if_neg solid, cut] at inductionHypothesis
    exact absurd inductionHypothesis (List.cons_ne_nil _ _).symm
  | case6 c dark next rest solid word more found inductionHypothesis =>
    obtain ⟨first, pieces, cut⟩ := List.exists_cons_of_ne_nil (splitWhere_ne_nil isSpace rest)
    rw [found, splitWhere, if_neg solid, cut] at inductionHypothesis
    obtain ⟨rfl, rfl⟩ := List.cons.inj inductionHypothesis
    simp only [found]
    rw [splitWhere, if_neg dark, splitWhere, if_neg solid, cut]
    rfl

/-- A blank parts the words in front of it from those behind it. -/
theorem words_append_cons {c : Char} (blank : isSpace c = true) (before after : List Char) :
    words (before ++ c :: after) = words before ++ words after := by
  simp only [words_eq_filter_splitWhere, splitWhere_append_cons blank, List.filter_append]

theorem words_blank_append {blanks : List Char} (blank : ∀ c ∈ blanks, isSpace c = true)
    (text : List Char) : words (blanks ++ text) = words text := by
  induction blanks with
  | nil => rfl
  | cons c rest inductionHypothesis =>
    obtain ⟨first, later⟩ := List.forall_mem_cons.mp blank
    rw [List.cons_append, ← List.nil_append (c :: _), words_append_cons first,
      inductionHypothesis later]
    rfl

theorem words_of_solid {text : List Char} (nonempty : text ≠ [])
    (solid : ∀ c ∈ text, isSpace c = false) : words text = [text] := by
  rw [words_eq_filter_splitWhere, splitWhere_of_free solid]
  exact List.filter_eq_self.mpr (by simpa using nonempty)

end DocEntities.Text
