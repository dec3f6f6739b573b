/-
This file says what layers of evidence amount to. Fields are merged in three ways: the later value
counts if there is one, the later list counts if it is not empty, and of the remarks the later one
counts under each key. All three are one rule, told field by field: what is said last counts, and
where nothing is said the field stays open. The laws of merging follow from that rule.
-/

import DocEntities.Proofs.TagOrder
import Mathlib.Data.List.Induction

namespace DocEntities

/-! ### Remarks -/

namespace Remarks

theorem get?_foldl_insert (remarks : Remarks) {entries : List (String × Remark)}
    (ascending : entries.Pairwise (fun first second => first.1 < second.1)) (key : String) :
    (entries.foldl (fun merged entry => merged.insert entry.1 entry.2) remarks).get? key =
      ((entries.find? (fun entry => entry.1 == key)).map Prod.snd).or (remarks.get? key) := by
  induction entries generalizing remarks with
  | nil => rfl
  | cons head rest inductionHypothesis =>
    obtain ⟨below, restAscending⟩ := List.pairwise_cons.mp ascending
    rw [List.foldl_cons, inductionHypothesis _ restAscending, get?_insert]
    by_cases here : head.1 = key
    · -- The keys ascend, so none of the rest is this one.
      have absent : rest.find? (fun entry => entry.1 == key) = none := by
        refine List.find?_eq_none.mpr fun entry member same => ?_
        have again : head.1 = entry.1 := here.trans (beq_iff_eq.mp same).symm
        exact Std.lt_irrefl (again ▸ below entry member)
      rw [if_pos here, absent, List.find?_cons_of_pos (by simpa using here)]
      rfl
    · rw [if_neg here, List.find?_cons_of_neg (by simpa using here)]

/-- Under each key the later remark counts. -/
theorem get?_merge (remarks later : Remarks) (key : String) :
    (remarks.merge later).get? key = (later.get? key).or (remarks.get? key) :=
  get?_foldl_insert remarks later.ascending key

theorem empty_merge (remarks : Remarks) : empty.merge remarks = remarks :=
  eq_of_get?_eq fun key => by
    rw [get?_merge]
    exact Option.or_none

end Remarks

/-! ### What is said in a field -/

namespace Evidence

namespace Field

/-- Whether something is said in a field. -/
def isSaid : (field : Field) → field.Content → Bool
  | .codeId | .name | .container | .inheritsFrom | .description | .summary =>
    fun value : Option String => value.isSome
  | .kind => fun value : Option Kind => value.isSome
  | .isInstanceMember | .deprecated | .inheritdoc => fun value : Option Bool => value.isSome
  | .params => fun values : List Param => !values.isEmpty
  | .returns => fun values : List Returned => !values.isEmpty
  | .types => fun value : Option (List String) => value.isSome
  | .source => fun value : Option Origin => value.isSome
  | .remark _ => fun value : Option Remark => value.isSome

/-- A field in which nothing is said. -/
def silence (field : Field) : field.Content :=
  empty.get field

/-- What is said last in a field. -/
def lastSaid (field : Field) (contents : List field.Content) : field.Content :=
  (contents.reverse.find? field.isSaid).getD field.silence

/-- `later` laid over `earlier`, in one field. -/
def overlay (field : Field) (earlier later : field.Content) : field.Content :=
  if field.isSaid later then later else earlier

/-- There is one way to say nothing. -/
theorem eq_silence {field : Field} {content : field.Content}
    (silent : field.isSaid content = false) : content = field.silence := by
  cases field with
  | params => exact List.isEmpty_iff.mp (Bool.not_eq_eq_eq_not.mp silent)
  | returns => exact List.isEmpty_iff.mp (Bool.not_eq_eq_eq_not.mp silent)
  | _ => exact Option.not_isSome_iff_eq_none.mp (Bool.not_eq_true _ ▸ silent)

theorem isSaid_silence (field : Field) : field.isSaid field.silence = false := by
  cases field <;> rfl

variable (field : Field) (first second third : field.Content)

theorem overlay_silence : field.overlay first field.silence = first := by
  rw [overlay, isSaid_silence, if_neg Bool.false_ne_true]

theorem silence_overlay : field.overlay field.silence first = first := by
  unfold overlay
  split
  · rfl
  · rename_i silent
    exact (eq_silence (Bool.not_eq_true _ ▸ silent)).symm

theorem overlay_assoc :
    field.overlay (field.overlay first second) third =
      field.overlay first (field.overlay second third) := by
  unfold overlay
  by_cases said : field.isSaid third = true
  · simp only [if_pos said]
  · simp only [if_neg said]

theorem overlay_overlay_self :
    field.overlay (field.overlay first second) first = field.overlay second first := by
  unfold overlay
  by_cases said : field.isSaid first = true
  · simp only [if_pos said]
  · simp only [if_neg said]
    split
    · rfl
    · rename_i silent
      exact (eq_silence (Bool.not_eq_true _ ▸ said)).trans
        (eq_silence (Bool.not_eq_true _ ▸ silent)).symm

theorem lastSaid_concat (contents : List field.Content) :
    field.lastSaid (contents ++ [first]) = field.overlay (field.lastSaid contents) first := by
  rw [lastSaid, lastSaid, List.reverse_append, List.reverse_singleton, List.singleton_append,
    overlay]
  by_cases said : field.isSaid first = true
  · rw [if_pos said, List.find?_cons_of_pos said, Option.getD_some]
  · rw [if_neg said, List.find?_cons_of_neg said]

end Field

/-! ### Merging -/

theorem or_eq_ite {α : Type} (earlier later : Option α) :
    later.or earlier = if later.isSome then later else earlier := by
  cases later <;> rfl

theorem preferred_eq_ite {α : Type} (earlier later : List α) :
    preferred earlier later = if !later.isEmpty then later else earlier := by
  cases later <;> rfl

/-- Every field is merged by the same rule. -/
theorem get_merge (earlier later : Evidence) (field : Field) :
    (earlier.merge later).get field = field.overlay (earlier.get field) (later.get field) := by
  cases field with
  | params => exact preferred_eq_ite _ _
  | returns => exact preferred_eq_ite _ _
  | remark name => exact (Remarks.get?_merge _ _ _).trans (or_eq_ite _ _)
  | _ => exact or_eq_ite _ _

theorem empty_merge (evidence : Evidence) : empty.merge evidence = evidence :=
  eq_of_get_eq fun field => by
    rw [get_merge]
    exact field.silence_overlay _

theorem merge_empty (evidence : Evidence) : evidence.merge empty = evidence :=
  eq_of_get_eq fun field => by
    rw [get_merge]
    exact field.overlay_silence _

theorem merge_assoc (first second third : Evidence) :
    (first.merge second).merge third = first.merge (second.merge third) :=
  eq_of_get_eq fun field => by
    simp only [get_merge]
    exact field.overlay_assoc _ _ _

/-- Evidence that is laid over again hides what it says below. -/
theorem merge_merge_self (first second : Evidence) :
    (first.merge second).merge first = second.merge first :=
  eq_of_get_eq fun field => by
    simp only [get_merge]
    exact field.overlay_overlay_self _ _

/-- Of layers merged one after the other, what is said last in a field counts. -/
theorem get_foldl_merge (layers : List Evidence) (field : Field) :
    (layers.foldl merge empty).get field =
      field.lastSaid (layers.map fun layer => layer.get field) := by
  induction layers using List.reverseRecOn with
  | nil => rfl
  | append_singleton front layer inductionHypothesis =>
    rw [List.foldl_concat, get_merge, inductionHypothesis, List.map_append]
    exact (field.lastSaid_concat _ _).symm

end Evidence

end DocEntities
