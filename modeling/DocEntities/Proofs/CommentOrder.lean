/-
This file shows that an index of comments depends on the comments alone, and not on the order in
which they are handed over or on how often each of them is. The documentation comments are put in
the order of their starts, and of several that start at one place one is kept; if those are
copies of one another, what is left is the one ascending list of the documentation comments.

It is the list, too, that says which comment a line gets. Several comments may end on one line,
one of them behind the others, and the last of the list among them is the one that starts last.
-/

import DocEntities.Proofs.CommentIndex
import Mathlib.Data.List.Sort

namespace DocEntities

/-- One comment starts before another. -/
def SourceComment.StartsBefore (first second : SourceComment) : Prop :=
  first.start.offset < second.start.offset

/-- A block comment that opens with a second star ends on the line before a line. -/
structure SourceComment.Documents (comment : SourceComment) (line : Nat) : Prop where
  isBlock : comment.isBlock = true
  opens : comment.text.toList.head? = some '*'
  ends : comment.endLine + 1 = line

theorem SourceComment.documents_iff_isDoc {comment : SourceComment} {line : Nat} :
    comment.Documents line ↔ comment.isDoc = true ∧ comment.endLine + 1 = line := by
  rw [isDoc, Bool.and_eq_true, beq_iff_eq]
  exact ⟨fun documents => ⟨⟨documents.isBlock, documents.opens⟩, documents.ends⟩,
    fun parts => ⟨parts.1.1, parts.1.2, parts.2⟩⟩

namespace CommentIndex

/-- Comments that start at one place are copies of one another. -/
def AreCopies (comments : List SourceComment) : Prop :=
  ∀ first ∈ comments, ∀ second ∈ comments, first.start.offset = second.start.offset →
    first = second

/-- Of all comments that document a line, a comment starts last. -/
structure IsLatest (comments : List SourceComment) (line : Nat) (comment : SourceComment) :
    Prop where
  member : comment ∈ comments
  documents : comment.Documents line
  latest : ∀ other ∈ comments, other.Documents line → other.start.offset ≤ comment.start.offset

/-! ### Comments in the order of their starts -/

/-- The first comment is kept, and with it all that is kept of the others, but for the first of
those if it starts at the same place. -/
theorem dropCopies_cons (first : SourceComment) (rest : List SourceComment) :
    ∃ kept, dropCopies (first :: rest) = first :: kept ∧
      ((kept = dropCopies rest ∧
          ∀ second ∈ (dropCopies rest).head?, first.start.offset ≠ second.start.offset) ∨
        ∃ second, dropCopies rest = second :: kept ∧
          first.start.offset = second.start.offset) := by
  rw [dropCopies]
  cases dropCopies rest with
  | nil => exact ⟨[], rfl, Or.inl ⟨rfl, by simp⟩⟩
  | cons second more =>
    by_cases same : first.start.offset = second.start.offset
    · exact ⟨more, if_pos same, Or.inr ⟨second, rfl, same⟩⟩
    · exact ⟨second :: more, if_neg same, Or.inl ⟨rfl, by simpa using same⟩⟩

theorem mem_of_mem_dropCopies {comments : List SourceComment} {comment : SourceComment}
    (left : comment ∈ dropCopies comments) : comment ∈ comments := by
  induction comments with
  | nil => exact left
  | cons first rest inductionHypothesis =>
    obtain ⟨kept, whole, ⟨rfl, -⟩ | ⟨second, others, -⟩⟩ := dropCopies_cons first rest
    · rw [whole] at left
      exact List.mem_cons.mpr ((List.mem_cons.mp left).imp_right inductionHypothesis)
    · rw [whole] at left
      rw [others] at inductionHypothesis
      exact List.mem_cons.mpr ((List.mem_cons.mp left).imp_right fun later =>
        inductionHypothesis (List.mem_cons_of_mem second later))

/-- Of every comment a copy is left. -/
theorem exists_mem_dropCopies {comments : List SourceComment} {comment : SourceComment}
    (member : comment ∈ comments) :
    ∃ left ∈ dropCopies comments, left.start.offset = comment.start.offset := by
  induction comments with
  | nil => cases member
  | cons first rest inductionHypothesis =>
    obtain ⟨kept, whole, dropped⟩ := dropCopies_cons first rest
    rw [whole]
    rcases List.mem_cons.mp member with rfl | later
    · exact ⟨comment, List.mem_cons_self, rfl⟩
    · obtain ⟨left, inRest, same⟩ := inductionHypothesis later
      rcases dropped with ⟨rfl, -⟩ | ⟨second, others, sameStart⟩
      · exact ⟨left, List.mem_cons_of_mem first inRest, same⟩
      · rw [others] at inRest
        rcases List.mem_cons.mp inRest with rfl | isKept
        · exact ⟨first, List.mem_cons_self, sameStart.trans same⟩
        · exact ⟨left, List.mem_cons_of_mem first isKept, same⟩

/-- What is left of comments in the order of their starts ascends. -/
theorem pairwise_dropCopies {comments : List SourceComment}
    (ordered : comments.Pairwise fun first second => first.start.offset ≤ second.start.offset) :
    (dropCopies comments).Pairwise SourceComment.StartsBefore := by
  induction comments with
  | nil => exact .nil
  | cons first rest inductionHypothesis =>
    obtain ⟨atMost, restOrdered⟩ := List.pairwise_cons.mp ordered
    have ascending := inductionHypothesis restOrdered
    obtain ⟨kept, whole, dropped⟩ := dropCopies_cons first rest
    rw [whole]
    rcases dropped with ⟨rfl, different⟩ | ⟨second, others, same⟩
    · refine List.pairwise_cons.mpr ⟨fun later member => ?_, ascending⟩
      cases others : dropCopies rest with
      | nil => rw [others] at member; cases member
      | cons second more =>
        rw [others] at member ascending
        -- The first of the others starts behind, and all further ones start behind that one.
        have before : first.StartsBefore second := by
          have inRest := mem_of_mem_dropCopies (others ▸ List.mem_cons_self)
          exact Nat.lt_of_le_of_ne (atMost second inRest) (different second (by rw [others]; rfl))
        rcases List.mem_cons.mp member with rfl | further
        · exact before
        · exact Nat.lt_trans before ((List.pairwise_cons.mp ascending).1 later further)
    · rw [others] at ascending
      obtain ⟨behind, keptAscending⟩ := List.pairwise_cons.mp ascending
      refine List.pairwise_cons.mpr ⟨fun later member => ?_, keptAscending⟩
      exact same.trans_lt (behind later member)

/-! ### The documentation comments in order -/

theorem pairwise_docs (comments : List SourceComment) :
    (docs comments).Pairwise SourceComment.StartsBefore := by
  have sorted : ((comments.filter SourceComment.isDoc).mergeSort
      (fun first second => first.start.offset ≤ second.start.offset)).Pairwise
        fun first second => decide (first.start.offset ≤ second.start.offset) = true := by
    refine List.pairwise_mergeSort (fun first second third atMost further => ?_)
      (fun first second => ?_) _
    · rw [decide_eq_true_eq] at atMost further ⊢
      exact Nat.le_trans atMost further
    · rw [Bool.or_eq_true, decide_eq_true_eq, decide_eq_true_eq]
      exact Nat.le_total _ _
  exact pairwise_dropCopies (sorted.imp of_decide_eq_true)

/-- If equal starts mean copies, no documentation comment is lost. -/
theorem mem_docs_iff {comments : List SourceComment} (copies : AreCopies comments)
    {comment : SourceComment} :
    comment ∈ docs comments ↔ comment ∈ comments ∧ comment.isDoc = true := by
  have kept (other : SourceComment) (left : other ∈ docs comments) :
      other ∈ comments ∧ other.isDoc = true :=
    List.mem_filter.mp (List.mem_mergeSort.mp (mem_of_mem_dropCopies left))
  refine ⟨kept comment, fun found => ?_⟩
  obtain ⟨left, inDocs, same⟩ :=
    exists_mem_dropCopies (List.mem_mergeSort.mpr (List.mem_filter.mpr found))
  rwa [← copies left (kept left inDocs).1 comment found.1 same]

/-- The order of the comments, and how often each is handed over, do not matter. -/
theorem docs_eq_of_mem_iff {comments others : List SourceComment} (copies : AreCopies comments)
    (same : ∀ comment, comment ∈ others ↔ comment ∈ comments) : docs others = docs comments := by
  have othersCopies : AreCopies others := fun first member second secondMember =>
    copies first ((same first).mp member) second ((same second).mp secondMember)
  have irrefl : Std.Irrefl SourceComment.StartsBefore := ⟨fun _ => Nat.lt_irrefl _⟩
  have antisymm : Std.Antisymm SourceComment.StartsBefore :=
    ⟨fun _ _ before behind => absurd before (Nat.lt_asymm behind)⟩
  refine (pairwise_docs others).eq_of_mem_iff (pairwise_docs comments) fun comment => ?_
  rw [mem_docs_iff othersCopies, mem_docs_iff copies, same]

/-! ### The comment of a line -/

theorem mem_docs_and_documents_iff {comments : List SourceComment} (copies : AreCopies comments)
    {line : Nat} {comment : SourceComment} :
    comment ∈ docs comments ∧ documents line comment = true ↔
      comment ∈ comments ∧ comment.Documents line := by
  rw [mem_docs_iff copies, documents_iff, SourceComment.documents_iff_isDoc, and_assoc]

theorem isLatest_of_find? {comments : List SourceComment} (copies : AreCopies comments)
    {line : Nat} {comment : SourceComment}
    (found : (docs comments).reverse.find? (documents line) = some comment) :
    IsLatest comments line comment := by
  obtain ⟨ends, later, earlier, whole, passed⟩ := List.find?_eq_some_iff_append.mp found
  have inDocs : comment ∈ docs comments :=
    List.mem_reverse.mp (List.mem_of_find?_eq_some found)
  obtain ⟨member, isOne⟩ := (mem_docs_and_documents_iff copies).mp ⟨inDocs, ends⟩
  refine ⟨member, isOne, fun other otherMember otherIsOne => ?_⟩
  obtain ⟨otherInDocs, otherEnds⟩ :=
    (mem_docs_and_documents_iff copies).mpr ⟨otherMember, otherIsOne⟩
  have descending := List.pairwise_reverse.mpr (pairwise_docs comments)
  rw [← List.mem_reverse, whole] at otherInDocs
  rw [whole] at descending
  -- All that start later have been passed, since they do not document the line.
  rcases List.mem_append.mp otherInDocs with isLater | rest
  · have notPassed := passed other isLater
    rw [otherEnds] at notPassed
    cases notPassed
  · rcases List.mem_cons.mp rest with rfl | isEarlier
    · exact Nat.le_refl _
    · have fromHere := (List.pairwise_append.mp descending).2.1
      exact Nat.le_of_lt ((List.pairwise_cons.mp fromHere).1 other isEarlier)

theorem IsLatest.unique {comments : List SourceComment} (copies : AreCopies comments)
    {line : Nat} {first second : SourceComment} (firstLatest : IsLatest comments line first)
    (secondLatest : IsLatest comments line second) : first = second := by
  refine copies first firstLatest.member second secondLatest.member (Nat.le_antisymm ?_ ?_)
  · exact secondLatest.latest first firstLatest.member firstLatest.documents
  · exact firstLatest.latest second secondLatest.member secondLatest.documents

/-- The comment of a line is the one that starts last of those that document it. -/
theorem preceding?_eq_some_iff {comments : List SourceComment} (copies : AreCopies comments)
    {line : Nat} {doc : DocComment} :
    (collect comments).preceding? line = some doc ↔
      ∃ comment, IsLatest comments line comment ∧ comment.toDoc = doc := by
  rw [preceding?_collect, Option.map_eq_some_iff]
  refine exists_congr fun comment => and_congr_left fun _ => ⟨isLatest_of_find? copies, ?_⟩
  intro latest
  have documented : ((docs comments).reverse.find? (documents line)).isSome := by
    rw [List.find?_isSome]
    simp only [List.mem_reverse, mem_docs_and_documents_iff copies]
    exact ⟨comment, latest.member, latest.documents⟩
  obtain ⟨other, found⟩ := Option.isSome_iff_exists.mp documented
  rw [found, latest.unique copies (isLatest_of_find? copies found)]

/-- A line has no comment if no comment documents it. -/
theorem preceding?_eq_none_iff {comments : List SourceComment} (copies : AreCopies comments)
    {line : Nat} :
    (collect comments).preceding? line = none ↔
      ∀ comment ∈ comments, ¬ comment.Documents line := by
  rw [preceding?_collect, Option.map_eq_none_iff, List.find?_eq_none]
  refine forall_congr' fun comment => ?_
  rw [List.mem_reverse, ← not_and, ← not_and, mem_docs_and_documents_iff copies]

/-- Comments of which those that start at one place are copies may be put in any order and handed
over any number of times: the index is the same. Under a line it holds the comment that starts
last of the documentation comments that end on the line before, with its own lines and its text
without the marks, and it holds nothing if none ends there. -/
theorem collect_order_free {comments others : List SourceComment} (copies : AreCopies comments)
    (same : ∀ comment, comment ∈ others ↔ comment ∈ comments) :
    collect others = collect comments ∧
      ∀ line,
        (∀ doc, (collect others).preceding? line = some doc ↔
          ∃ comment, IsLatest comments line comment ∧
            doc = ⟨Comment.stripMarkers comment.text, comment.start.line, comment.endLine⟩) ∧
        ((collect others).preceding? line = none ↔
          ∀ comment ∈ comments, ¬ comment.Documents line) := by
  have one : collect others = collect comments := by
    rw [collect, collect, docs_eq_of_mem_iff copies same]
  refine ⟨one, fun line => ?_⟩
  rw [one]
  refine ⟨fun doc => (preceding?_eq_some_iff copies).trans ?_, preceding?_eq_none_iff copies⟩
  exact exists_congr fun comment => and_congr_right fun _ => eq_comm

/-- A comment over two lines, and one behind it on the second of these lines. -/
def sharedEnd : List SourceComment :=
  [⟨true, ⟨0, 1⟩, 2, "* Opens\nfirst"⟩, ⟨true, ⟨19, 2⟩, 2, "* Opens last"⟩]

theorem collect_sharedEnd_shuffled :
    AreCopies sharedEnd ∧ collect (sharedEnd.reverse ++ sharedEnd) = collect sharedEnd ∧
      (collect (sharedEnd.reverse ++ sharedEnd)).preceding? 3 = some ⟨" Opens last", 2, 2⟩ ∧
      (collect (sharedEnd.reverse ++ sharedEnd)).preceding? 2 = none := by
  have copies : AreCopies sharedEnd := by
    unfold AreCopies sharedEnd
    decide
  have same (comment : SourceComment) :
      comment ∈ sharedEnd.reverse ++ sharedEnd ↔ comment ∈ sharedEnd := by
    rw [List.mem_append, List.mem_reverse, or_self]
  have ordered := collect_order_free copies same
  refine ⟨copies, ordered.1, ((ordered.2 3).1 _).mpr ?_, (ordered.2 2).2.mpr ?_⟩
  · refine ⟨⟨true, ⟨19, 2⟩, 2, "* Opens last"⟩, ⟨by decide, ⟨rfl, by decide, rfl⟩, ?_⟩, ?_⟩
    · intro other member _
      rcases List.mem_pair.mp member with rfl | rfl <;> decide
    · decide +kernel
  · intro comment member documents
    have ends := documents.ends
    rcases List.mem_pair.mp member with rfl | rfl <;> cases ends

end CommentIndex

end DocEntities
