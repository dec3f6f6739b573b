/-
This file proves what an index of comments answers. Every comment is put under the line behind
the one it ends on, in the order in which the comments start, and a later comment takes the
place of an earlier one. So the comment of a line is the last one that ends on the line
before, and there are no more documented lines than comments.
-/

import DocEntities.Comment.Index
import Mathlib.Data.List.Perm.Subperm
import Mathlib.Data.List.Sort

namespace DocEntities.CommentIndex

/-- Whether a comment documents a line: it ends on the line before. -/
def documents (line : Nat) (comment : SourceComment) : Bool :=
  comment.endLine + 1 == line

theorem documents_iff {line : Nat} {comment : SourceComment} :
    documents line comment = true ↔ comment.endLine + 1 = line :=
  beq_iff_eq

/-! ### Sorting -/

/-- Merging keeps the order of comments that start together, so it sorts them as inserting one
after the other does. -/
theorem mergeSort_eq_insertionSort (comments : List SourceComment) :
    comments.mergeSort (fun first second => first.start.offset ≤ second.start.offset) =
      comments.insertionSort (fun first second => first.start.offset ≤ second.start.offset) := by
  have trans : ∀ first second third : SourceComment,
      decide (first.start.offset ≤ second.start.offset) →
        decide (second.start.offset ≤ third.start.offset) →
          decide (first.start.offset ≤ third.start.offset) := by
    simpa using fun _ _ _ => Nat.le_trans
  have total : ∀ first second : SourceComment, decide (first.start.offset ≤ second.start.offset) ||
      decide (second.start.offset ≤ first.start.offset) := by
    simpa using fun _ _ => Nat.le_total _ _
  induction comments with
  | nil => exact List.mergeSort_nil
  | cons first rest inductionHypothesis =>
    obtain ⟨front, back, whole, without, behind⟩ := List.mergeSort_cons trans total first rest
    have sorted := List.pairwise_mergeSort trans total (first :: rest)
    rw [whole] at sorted ⊢
    have passed : ∀ comment ∈ front, decide ¬first.start.offset ≤ comment.start.offset := by
      simpa using behind
    rw [List.insertionSort_cons, ← inductionHypothesis, without, List.orderedInsert_eq_take_drop,
      List.takeWhile_append_of_pos passed, List.dropWhile_append_of_pos passed]
    cases back with
    | nil => simp
    | cons next back =>
      have before : first.start.offset ≤ next.start.offset := by
        have onward := (List.pairwise_append.mp sorted).2.1
        simpa using List.rel_of_pairwise_cons onward List.mem_cons_self
      simp [before]

/-- The index of some comments, with the comments sorted in steps that can be evaluated. -/
theorem collect_eq_insertionSort (comments : List SourceComment) :
    collect comments = ⟨(dropCopies ((comments.filter SourceComment.isDoc).insertionSort
      (fun first second => first.start.offset ≤ second.start.offset))).foldl
        (fun entries comment => put (comment.endLine + 1) comment.toDoc entries) []⟩ := by
  rw [collect, docs, mergeSort_eq_insertionSort]

/-! ### One comment more -/

theorem preceding?_put (line other : Nat) (doc : DocComment) (entries : List (Nat × DocComment)) :
    preceding? ⟨put line doc entries⟩ other =
      if line = other then some doc else preceding? ⟨entries⟩ other := by
  induction entries with
  | nil => by_cases same : line = other <;> simp [put, preceding?, same]
  | cons head rest inductionHypothesis =>
    simp only [preceding?] at inductionHypothesis ⊢
    simp only [put]
    split
    · by_cases same : line = other <;> simp [same]
    · split
      · rename_i replaced
        by_cases same : line = other
        · simp [same]
        · have passed : (head.1 == other) = false := by simpa [← replaced] using same
          simp [same, passed]
      · rename_i _ different
        by_cases found : head.1 = other
        · have same : line ≠ other := fun equal => different (equal.trans found.symm)
          simp [found, same]
        · have passed : (head.1 == other) = false := by simpa using found
          simp only [List.find?_cons, passed, inductionHypothesis]

theorem length_put_le (line : Nat) (doc : DocComment) (entries : List (Nat × DocComment)) :
    (put line doc entries).length ≤ entries.length + 1 := by
  induction entries with
  | nil => simp [put]
  | cons head rest inductionHypothesis =>
    simp only [put]
    split
    · simp
    · split
      · simp
      · simpa using inductionHypothesis

/-! ### All comments -/

theorem preceding?_foldl_put (comments : List SourceComment) (line : Nat)
    (entries : List (Nat × DocComment)) :
    preceding? ⟨comments.foldl
        (fun entries comment => put (comment.endLine + 1) comment.toDoc entries) entries⟩ line =
      ((comments.reverse.find? (documents line)).map SourceComment.toDoc).or
        (preceding? ⟨entries⟩ line) := by
  induction comments generalizing entries with
  | nil => rfl
  | cons first rest inductionHypothesis =>
    rw [List.foldl_cons, inductionHypothesis, preceding?_put, List.reverse_cons,
      List.find?_append]
    by_cases same : first.endLine + 1 = line
    · rw [if_pos same, List.find?_singleton, if_pos (documents_iff.mpr same)]
      cases rest.reverse.find? (documents line) <;> rfl
    · rw [if_neg same, List.find?_singleton, if_neg (mt documents_iff.mp same), Option.or_none]

/-- The comment of a line is the last one that ends on the line before. -/
theorem preceding?_collect (comments : List SourceComment) (line : Nat) :
    (collect comments).preceding? line =
      ((docs comments).reverse.find? (documents line)).map SourceComment.toDoc := by
  have folded := preceding?_foldl_put (docs comments) line []
  rw [show preceding? ⟨[]⟩ line = none from rfl, Option.or_none] at folded
  exact folded

theorem exists_of_preceding? {comments : List SourceComment} {line : Nat} {doc : DocComment}
    (found : (collect comments).preceding? line = some doc) :
    ∃ comment ∈ docs comments, comment.toDoc = doc ∧ comment.endLine + 1 = line := by
  rw [preceding?_collect] at found
  obtain ⟨comment, last, toDoc⟩ := Option.map_eq_some_iff.mp found
  exact ⟨comment, List.mem_reverse.mp (List.mem_of_find?_eq_some last), toDoc,
    documents_iff.mp (List.find?_some last)⟩

/-- A line is documented if some comment ends on the line before. -/
theorem preceding?_isSome_iff {comments : List SourceComment} {line : Nat} :
    ((collect comments).preceding? line).isSome ↔
      ∃ comment ∈ docs comments, comment.endLine + 1 = line := by
  rw [preceding?_collect, Option.isSome_map, List.find?_isSome]
  simp only [List.mem_reverse, documents_iff]

/-! ### The number of documented lines -/

theorem length_foldl_put_le (comments : List SourceComment) (entries : List (Nat × DocComment)) :
    (comments.foldl
        (fun entries comment => put (comment.endLine + 1) comment.toDoc entries) entries).length ≤
      entries.length + comments.length := by
  induction comments generalizing entries with
  | nil => simp
  | cons first rest inductionHypothesis =>
    have later := inductionHypothesis (put (first.endLine + 1) first.toDoc entries)
    have one := length_put_le (first.endLine + 1) first.toDoc entries
    rw [List.foldl_cons, List.length_cons]
    omega

theorem size_collect_le (comments : List SourceComment) :
    (collect comments).size ≤ (docs comments).length := by
  have bound := length_foldl_put_le (docs comments) []
  rwa [List.length_nil, Nat.zero_add] at bound

/-- There are at most as many different lines with a comment as the index has entries. -/
theorem length_le_size {index : CommentIndex} {lines : List Nat} (distinct : lines.Nodup)
    (documented : ∀ line ∈ lines, (index.preceding? line).isSome) :
    lines.length ≤ index.size := by
  have isKey : lines ⊆ index.entries.map Prod.fst := by
    intro line member
    have found := documented line member
    rw [preceding?, Option.isSome_map, List.find?_isSome] at found
    obtain ⟨entry, entryMember, same⟩ := found
    exact List.mem_map.mpr ⟨entry, entryMember, beq_iff_eq.mp same⟩
  have bound := (distinct.subperm isKey).length_le
  rwa [List.length_map] at bound

end DocEntities.CommentIndex
