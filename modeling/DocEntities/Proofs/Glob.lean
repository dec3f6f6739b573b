/-
This file proves what becomes of a pattern behind the way up to a directory. It stays a pattern,
because whole components may stand behind a separator as they may at the start, and it takes the
steps of that way before its own. Whether it still matches the same paths depends on it: `*` in
its text may take in the way up, and a plain start does not match it.
-/

import DocEntities.Glob.Expansion
import DocEntities.Proofs.Path

namespace DocEntities.Glob

/-! ### Reading -/

/-- Whether parts can be read depends on the text, and on what stands before it only by whether
whole components may follow. -/
theorem isOk_readParts (bound : Nat) (position other : Nat) {previous before : Option Char}
    
    (same : (previous.isNone || previous == some '/') = (before.isNone || before == some '/'))
    (parts earlier : List Part) (text : List Char) :
    (readParts bound position previous parts text).isOk =
      (readParts bound other before earlier text).isOk := by
  -- By the cases of the reader. The character before is looked at only where stars begin; behind
  -- every part it is the same on both sides.
  fun_induction readParts bound position previous parts text generalizing other before earlier with
  | case1 => rfl
  | case2 => rfl
  | case3 bound position previous parts rest inductionHypothesis =>
    exact inductionHypothesis _ rfl _
  | case4 bound position previous parts rest more count =>
    rename_i tooMany
    rw [readParts, if_pos tooMany]
    rfl
  | case5 bound position previous parts rest more after count few one =>
    rename_i inductionHypothesis
    rw [readParts, if_neg few, if_pos one]
    exact inductionHypothesis _ rfl _
  | case6 bound position previous parts rest more after count few two start none =>
    rename_i inductionHypothesis
    rw [readParts, if_neg few, if_neg two, if_pos (same.symm.trans start),
      show rest.dropWhile (· == '*') = [] from none]
    exact inductionHypothesis _ rfl _
  | case7 bound position previous parts rest more after count few two start behind follows =>
    rename_i inductionHypothesis
    rw [readParts, if_neg few, if_neg two, if_pos (same.symm.trans start),
      show rest.dropWhile (· == '*') = '/' :: behind from follows]
    exact inductionHypothesis _ rfl _
  | case8 bound position previous parts rest more after count few two start some =>
    rename_i notSeparator
    rw [readParts, if_neg few, if_neg two, if_pos (same.symm.trans start)]
    split
    · exact absurd ‹_› some
    · exact absurd ‹_› (notSeparator _)
    · rfl
  | case9 bound position previous parts rest more count few two =>
    rename_i inside
    rw [readParts, if_neg few, if_neg two, if_neg fun start => inside (same.trans start)]
    rfl
  | case10 bound position previous parts rest none =>
    rw [readParts, none]
    rfl
  | case11 bound position previous parts rest part after found inductionHypothesis =>
    rw [readParts, found]
    exact inductionHypothesis _ rfl _
  | case12 bound position previous parts c rest notAny notStar notBracket inductionHypothesis =>
    rw [readParts]
    · exact inductionHypothesis _ rfl _
    · exact notAny
    · exact notStar
    · exact notBracket

theorem isOk_ofText (text : String) :
    (ofText text).isOk = (readParts (text.toList.length + 1) 0 none [] text.toList).isOk := by
  unfold ofText
  cases readParts (text.toList.length + 1) 0 none [] text.toList <;> rfl

/-- A text behind a step up is a pattern if it is one by itself. -/
theorem isOk_ofText_up (text : String) : (ofText ("../" ++ text)).isOk = (ofText text).isOk := by
  have chars : ("../" ++ text).toList = '.' :: '.' :: '/' :: text.toList := by simp
  -- The three characters are read one by one and leave the bound that the rest has by itself.
  have read : readParts (('.' :: '.' :: '/' :: text.toList).length + 1) 0 none []
      ('.' :: '.' :: '/' :: text.toList) =
      readParts (text.toList.length + 1) 3 (some '/') [.exactly '/', .exactly '.', .exactly '.']
        text.toList := rfl
  rw [isOk_ofText, isOk_ofText, chars, read]
  exact isOk_readParts _ _ _ (by decide) _ _ _

theorem isOk_ofText_climb (levels : Nat) {text : String} (relative : Path.isAbsolute text = false) :
    (ofText (Path.join (Path.climb levels) text)).isOk = (ofText text).isOk := by
  induction levels with
  | zero => rw [Path.climb_zero, Path.join_empty]
  | succ levels inductionHypothesis =>
    rw [Path.join_climb_succ levels relative, isOk_ofText_up, inductionHypothesis]

/-! ### Steps -/

theorem pieces_climb (levels : Nat) {text : String} (relative : Path.isAbsolute text = false) :
    Path.pieces (Path.join (Path.climb levels) text) =
      List.replicate levels ".." ++ Path.pieces text := by
  induction levels with
  | zero => rw [Path.climb_zero, Path.join_empty, List.replicate_zero, List.nil_append]
  | succ levels inductionHypothesis =>
    have cut := Path.pieces_append_separator ".." (Path.join (Path.climb levels) text)
    rw [Path.join_climb_succ levels relative, List.replicate_succ, List.cons_append,
      ← inductionHypothesis]
    exact cut

theorem stepPieces_climb (levels : Nat) {text : String} (relative : Path.isAbsolute text = false) :
    stepPieces (Path.join (Path.climb levels) text) =
      List.replicate levels ".." ++ stepPieces text := by
  have notTop : Path.isAbsolute (Path.join (Path.climb levels) text) = false := by
    rw [Path.isAbsolute_join_of_relative relative, Path.isAbsolute_climb]
  unfold stepPieces
  simp only [notTop, relative, Bool.false_eq_true, if_false]
  rw [pieces_climb levels relative, List.getLast?_append_of_ne_nil _ (Path.pieces_ne_nil _)]
  split
  · rw [List.dropLast_append_of_ne_nil (Path.pieces_ne_nil _)]
  · rfl

/-- Behind the way up, the steps of a pattern come after the steps of that way. -/
theorem steps_climb (levels : Nat) {text : String} (relative : Path.isAbsolute text = false)
    (valid : (ofText text).isOk = true) :
    steps (Path.join (Path.climb levels) text) =
      (steps text).map (List.replicate levels (.name "..") ++ ·) := by
  have up : (List.replicate levels "..").mapM Step.ofPiece =
      .ok (List.replicate levels (.name "..")) := by
    induction levels with
    | zero => rfl
    | succ levels inductionHypothesis =>
      rw [List.replicate_succ, List.mapM_cons, inductionHypothesis]
      rfl
  have read : ∀ {pattern}, (ofText pattern).isOk = true →
      steps pattern = (stepPieces pattern).mapM Step.ofPiece := by
    intro pattern valid
    unfold steps
    cases result : ofText pattern with
    | ok glob => rfl
    | error invalid => rw [result] at valid; cases valid
  rw [read valid, read (by rw [isOk_ofText_climb levels relative, valid]),
    stepPieces_climb levels relative, List.mapM_append, up]
  cases (stepPieces text).mapM Step.ofPiece <;> rfl

/-! ### Matching -/

/-- A pattern that takes no notice of steps up in front of a path. -/
def BlindToWayUp (glob : Glob) : Prop :=
  ∀ text, glob.accepts ("../" ++ text) = glob.accepts text

theorem BlindToWayUp.accepts_join_climb {glob : Glob} (blind : glob.BlindToWayUp) (levels : Nat)
    {path : String} (relative : Path.isAbsolute path = false) :
    glob.accepts (Path.join (Path.climb levels) path) = glob.accepts path := by
  induction levels with
  | zero => rw [Path.climb_zero, Path.join_empty]
  | succ levels inductionHypothesis =>
    rw [Path.join_climb_succ levels relative, blind, inductionHypothesis]

/-- Whole components at the start of a pattern take in a step up, so only what follows them can
notice it. -/
theorem blindToWayUp_of_anyComponents {parts : List Part}
    (follows : ∀ text, matchParts parts ('.' :: '.' :: '/' :: text) = true →
      matchParts (.anyComponents :: parts) text = true) :
    BlindToWayUp ⟨.anyComponents :: parts⟩ := by
  intro text
  have chars : ("../" ++ text).toList = '.' :: '.' :: '/' :: text.toList := by simp
  have taken : matchParts (.anyComponents :: parts) ('.' :: '.' :: '/' :: text.toList) =
      (matchParts parts ('.' :: '.' :: '/' :: text.toList) ||
        matchParts (.anyComponents :: parts) text.toList) := by
    simp [matchParts, anyComponentStart]
  rw [accepts, accepts, chars, taken]
  cases noticed : matchParts parts ('.' :: '.' :: '/' :: text.toList) with
  | false => rw [Bool.false_or]
  | true => rw [follows _ noticed, Bool.true_or]

/-- Whether a pattern starts with any components, and then with a character that no step up has or
with the ending of a name. -/
def startsBlind : List Part → Bool
  | .anyComponents :: .exactly c :: _ => c != '.'
  | .anyComponents :: .anyText :: .exactly '.' :: .exactly c :: _ => c != '.' && c != '/'
  | _ => false

theorem blindToWayUp_of_startsBlind {glob : Glob} (starts : startsBlind glob.parts = true) :
    glob.BlindToWayUp := by
  obtain ⟨parts⟩ := glob
  simp only at starts
  unfold startsBlind at starts
  split at starts
  · rename_i c rest
    refine blindToWayUp_of_anyComponents fun text noticed => ?_
    rw [bne_iff_ne] at starts
    simp [matchParts, Part.matchesChar, starts] at noticed
  · rename_i c rest
    refine blindToWayUp_of_anyComponents fun text noticed => ?_
    rw [Bool.and_eq_true, bne_iff_ne, bne_iff_ne] at starts
    have inside : matchParts (.anyText :: .exactly '.' :: .exactly c :: rest) text = true := by
      simpa [matchParts, anySuffix, Part.matchesChar, starts] using noticed
    simp only [matchParts] at inside ⊢
    rw [inside, Bool.true_or]
  · cases starts

end DocEntities.Glob
