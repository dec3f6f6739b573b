/-
This file says what the sign of an assignment in a line has to stand in front of. A line assigns a
function if the letters of the word for one stand behind the sign, whether or not they are the
whole word. Any other text behind the sign is a value, and the blanks around the sign do not count.
But the line is cut at its first brace: of an object nothing is seen but the blanks in front of it,
and where there is none, no value is seen at all.
-/

import DocEntities.Proofs.LineForm

namespace DocEntities

namespace LineForm

/-! ### Functions -/

theorem dropWhile_append_functionWord {after : List Char}
    (blank : ∀ c ∈ after, Text.isInlineBlank c = true) (rest : List Char) :
    (after ++ (functionWord ++ rest)).dropWhile Text.isInlineBlank = functionWord ++ rest := by
  rw [List.dropWhile_append_of_pos blank]
  exact List.dropWhile_cons_of_neg (by decide)

theorem opensFunction_iff {value : List Char} :
    opensFunction value = true ↔
      ∃ after rest, (∀ c ∈ after, Text.isInlineBlank c = true) ∧
        value = after ++ (functionWord ++ rest) := by
  unfold opensFunction
  rw [Option.isSome_iff_exists]
  constructor
  · rintro ⟨rest, word?⟩
    refine ⟨value.takeWhile Text.isInlineBlank, rest, fun c member => List.mem_takeWhile_imp member,
      ?_⟩
    rw [← Text.afterStart?_eq_some_iff.mp word?, List.takeWhile_append_dropWhile]
  · rintro ⟨after, rest, blank, rfl⟩
    exact ⟨rest, Text.afterStart?_eq_some_iff.mpr (dropWhile_append_functionWord blank rest)⟩

theorem head_eq_append {line : String} {front rest : List Char} (free : '\x7b' ∉ front)
    (whole : Text.trimmed line.toList = front ++ rest) :
    head line = front ++ rest.takeWhile (· != '\x7b') := by
  rw [head, whole, List.takeWhile_append_of_pos]
  exact fun c member => bne_iff_ne.mpr fun same => free (same ▸ member)

/-- The forms of a line that assigns a function. -/
def AssignsFunction : LineForm → Prop
  | .functionExpression _ | .prototypeMethod _ _ | .method _ _ => True
  | _ => False

theorem not_assignsFunction_of_valueForm? {target : Target} {form : LineForm}
    (found : target.valueForm? = some form) : ¬form.AssignsFunction := by
  cases target with
  | declared keyword blanks name => cases found; exact id
  | prototypeMember owner name => cases found; exact id
  | member receiver name =>
    rw [Target.valueForm?] at found
    split at found
    · cases found
    · cases found; exact id

/-- Without the blanks around it, a line assigns to the target of a form something that opens,
behind blanks, with the letters of the word for a function, and goes on with `rest`. -/
def WordBehindSign (line : String) (form : LineForm) (rest : List Char) : Prop :=
  ∃ (target : Target) (before after : List Char), target.IsWellFormed ∧
    target.functionForm = form ∧ (∀ c ∈ before, Text.isInlineBlank c = true) ∧
    (∀ c ∈ after, Text.isInlineBlank c = true) ∧
    Text.trimmed line.toList = target.text ++ (before ++ '=' :: (after ++ (functionWord ++ rest)))

/-- The word for a function stands behind the sign, and not only its letters at the start of a
longer name. -/
def KeywordBehindSign (line : String) (form : LineForm) : Prop :=
  ∃ rest, WordBehindSign line form rest ∧ EndsName rest

theorem WordBehindSign.unique {line : String} {form otherForm : LineForm}
    {rest otherRest : List Char} (word : WordBehindSign line form rest)
    (otherWord : WordBehindSign line otherForm otherRest) : rest = otherRest := by
  obtain ⟨target, before, after, formed, -, isBefore, isAfter, whole⟩ := word
  obtain ⟨other, otherBefore, otherAfter, otherFormed, -, isOtherBefore, isOtherAfter,
    otherWhole⟩ := otherWord
  have same := (Assigns.unique ⟨before, isBefore, whole⟩ ⟨otherBefore, isOtherBefore, otherWhole⟩
    (Target.isBare formed) (Target.isBare otherFormed)).2
  refine @List.append_cancel_left _ functionWord _ _ ?_
  rw [← dropWhile_append_functionWord isAfter, same, dropWhile_append_functionWord isOtherAfter]

theorem read?_of_wordBehindSign {line : String} {form : LineForm} {rest : List Char}
    (word : WordBehindSign line form rest) : read? line = some form := by
  obtain ⟨target, before, after, formed, rfl, isBefore, isAfter, whole⟩ := word
  have free : '\x7b' ∉ target.text ++ (before ++ '=' :: (after ++ functionWord)) := by
    simp only [List.mem_append, List.mem_cons, not_or]
    exact ⟨Target.free formed (by decide) (by decide) (by decide),
      fun member => absurd (isBefore _ member) (by decide), by decide,
      fun member => absurd (isAfter _ member) (by decide), by decide⟩
  have looked := @head_eq_append line _ rest free (by rw [whole]; simp)
  have assigns : Assigns (head line) target.text
      (after ++ (functionWord ++ rest.takeWhile (· != '\x7b'))) :=
    ⟨before, isBefore, by rw [looked]; simp⟩
  rw [read?_eq, ofText?_of_assigns formed assigns, Target.form?,
    if_pos (opensFunction_iff.mpr ⟨after, _, isAfter, rfl⟩)]

theorem exists_wordBehindSign {line : String} {form : LineForm}
    (assignsFunction : form.AssignsFunction) (read : read? line = some form) :
    ∃ rest, WordBehindSign line form rest := by
  rw [read?_eq] at read
  rcases statement_or_target_of_ofText? read with statement | ⟨target, formed, value, assigns⟩
  · obtain ⟨blanks, name, gap, rest, -, -, -, -, -, rfl⟩ :=
      functionStatement?_eq_some_iff.mp statement
    exact assignsFunction.elim
  · rw [ofText?_of_assigns formed assigns, Target.form?] at read
    obtain ⟨before, isBefore, whole⟩ := assigns
    split at read
    · rename_i opens
      obtain ⟨after, rest, isAfter, rfl⟩ := opensFunction_iff.mp opens
      refine ⟨rest ++ (Text.trimmed line.toList).dropWhile (· != '\x7b'), target, before, after,
        formed, Option.some.inj read, isBefore, isAfter, ?_⟩
      have parts : Text.trimmed line.toList =
          head line ++ (Text.trimmed line.toList).dropWhile (· != '\x7b') :=
        List.takeWhile_append_dropWhile.symm
      exact parts.trans (by rw [whole]; simp)
    · split at read
      · exact absurd assignsFunction (not_assignsFunction_of_valueForm? read)
      · cases read

/-- A line assigns a function exactly if the letters of the word for a function stand behind the
sign. What they are the start of is not looked at: the word itself stands there exactly if the
name does not go on behind the letters. -/
theorem function_assigned_iff {form : LineForm} (assignsFunction : form.AssignsFunction)
    (line : String) :
    read? line = some form ↔
      ∃ rest, WordBehindSign line form rest ∧ (KeywordBehindSign line form ↔ EndsName rest) := by
  constructor
  · intro read
    obtain ⟨rest, word⟩ := exists_wordBehindSign assignsFunction read
    refine ⟨rest, word, ?_, fun ends => ⟨rest, word, ends⟩⟩
    rintro ⟨other, otherWord, ends⟩
    exact word.unique otherWord ▸ ends
  · rintro ⟨rest, word, -⟩
    exact read?_of_wordBehindSign word

theorem function_assigned_iff_chain :
    (LineForm.method "lib.Tree" "grow").AssignsFunction ∧
      ∃ rest, WordBehindSign "lib.Tree.grow=\tfunction\x7b" (.method "lib.Tree" "grow") rest ∧
        (KeywordBehindSign "lib.Tree.grow=\tfunction\x7b" (.method "lib.Tree" "grow") ↔
          EndsName rest) :=
  ⟨trivial, (@function_assigned_iff (.method "lib.Tree" "grow") trivial _).mp (by decide)⟩

/-- A name that only starts like the word for a function makes the line define one. -/
theorem function_assigned_functional :
    read? "var tree = functional" = some (.functionExpression "tree") ∧
      ¬KeywordBehindSign "var tree = functional" (.functionExpression "tree") := by
  refine ⟨by decide, ?_⟩
  rintro ⟨rest, word, ends⟩
  have letters : WordBehindSign "var tree = functional" (.functionExpression "tree") "al".toList :=
    ⟨.declared "var".toList [' '] "tree".toList, [' '], [' '],
      ⟨by decide, by decide, List.forall_mem_singleton.mpr (by decide),
        by decide, List.all_eq_true.mp (by decide)⟩,
      rfl, List.forall_mem_singleton.mpr (by decide), List.forall_mem_singleton.mpr (by decide),
      by decide⟩
  rw [word.unique letters] at ends
  exact absurd (ends 'a' rfl) (by decide)

/-! ### Blanks around the sign -/

/-- A text in front of a sign names an entity: without blanks around it, it is a target of which
a value can be told. -/
def NamesEntity (left : List Char) : Prop :=
  ∃ (target : Target) (lead gap : List Char), target.IsWellFormed ∧
    target.valueForm?.isSome = true ∧ (∀ c ∈ lead, Text.isSpace c = true) ∧
    (∀ c ∈ gap, Text.isInlineBlank c = true) ∧ left = lead ++ (target.text ++ gap)

/-- What is looked at behind a sign. -/
def shownValue (after value : List Char) : List Char :=
  (Text.trimEnd (after ++ value)).takeWhile (· != '\x7b')

theorem trimmed_sign (front behind : List Char) :
    Text.trimmed (front ++ '=' :: behind) = Text.trimStart front ++ '=' :: Text.trimEnd behind := by
  have sign : Text.isSpace '=' = false := by decide
  have start : Text.trimStart (front ++ '=' :: behind) = Text.trimStart front ++ '=' :: behind := by
    unfold Text.trimStart
    rw [List.dropWhile_append]
    split
    · rename_i blank
      rw [List.isEmpty_iff.mp blank, List.dropWhile_cons_of_neg (by rw [sign]; decide)]
      rfl
    · rfl
  rw [Text.trimmed, start, Text.trimEnd_append_cons sign, Text.trimEnd_cons_of_not_blank sign]

/-- Blanks behind a text stay behind it, or are all of it. -/
theorem exists_trimStart_append {gap : List Char} (left : List Char)
    (isGap : ∀ c ∈ gap, Text.isInlineBlank c = true) :
    ∃ kept, (∀ c ∈ kept, Text.isInlineBlank c = true) ∧
      Text.trimStart (left ++ gap) = Text.trimStart left ++ kept := by
  unfold Text.trimStart
  rw [List.dropWhile_append]
  split
  · rename_i blank
    refine ⟨[], nofun, ?_⟩
    rw [List.isEmpty_iff.mp blank, List.append_nil, List.dropWhile_eq_nil_iff]
    exact fun c member => Text.isSpace_of_isInlineBlank (isGap c member)
  · exact ⟨gap, isGap, rfl⟩

section Spacing

variable {left before after : List Char} (isBefore : ∀ c ∈ before, Text.isInlineBlank c = true)

include isBefore

theorem exists_head_sign (plain : '\x7b' ∉ left) (after value : List Char) :
    ∃ gap, (∀ c ∈ gap, Text.isInlineBlank c = true) ∧
      head (String.ofList (left ++ (before ++ '=' :: (after ++ value)))) =
        Text.trimStart left ++ (gap ++ '=' :: shownValue after value) := by
  obtain ⟨gap, isGap, start⟩ := exists_trimStart_append left isBefore
  refine ⟨gap, isGap, ?_⟩
  have free : '\x7b' ∉ Text.trimStart left ++ (gap ++ ['=']) := by
    simp only [List.mem_append, not_or]
    exact ⟨fun member => plain ((List.dropWhile_suffix _).subset member),
      fun member => absurd (isGap _ member) (by decide), by decide⟩
  have whole : Text.trimmed (String.ofList
      (left ++ (before ++ '=' :: (after ++ value)))).toList =
        Text.trimStart left ++ (gap ++ ['=']) ++ Text.trimEnd (after ++ value) := by
    rw [String.toList_ofList, ← List.append_assoc, trimmed_sign, start]
    simp
  rw [head_eq_append free whole, shownValue]
  simp

/-- A line that assigns to a target is read by the target and by what is shown of the value. -/
theorem read?_of_target {target : Target} {lead gap : List Char} (formed : target.IsWellFormed)
    (isLead : ∀ c ∈ lead, Text.isSpace c = true) (isGap : ∀ c ∈ gap, Text.isInlineBlank c = true)
    (whole : left = lead ++ (target.text ++ gap)) (after value : List Char) :
    read? (String.ofList (left ++ (before ++ '=' :: (after ++ value)))) =
      target.form? (shownValue after value) := by
  have plain : '\x7b' ∉ left := by
    rw [whole]
    simp only [List.mem_append, not_or]
    exact ⟨fun member => absurd (isLead _ member) (by decide),
      Target.free formed (by decide) (by decide) (by decide),
      fun member => absurd (isGap _ member) (by decide)⟩
  obtain ⟨kept, isKept, shown⟩ := exists_head_sign isBefore plain after value
  obtain ⟨c, rest, opens, dark⟩ := Target.exists_eq_cons formed
  rw [whole, Text.trimStart_append_of_blank isLead, opens, List.cons_append,
    Text.trimStart_cons_of_not_blank dark, ← List.cons_append, ← opens, ← whole] at shown
  refine ofText?_of_assigns formed ⟨gap ++ kept, ?_, shown.trans (by simp)⟩
  exact List.forall_mem_append.mpr ⟨isGap, isKept⟩

/-- A line that assigns to no target has a form only if a statement in front of the sign gives it
one. -/
theorem read?_of_no_target (noSign : '=' ∉ left) (plain : '\x7b' ∉ left)
    (noTarget : ¬∃ (target : Target) (lead gap : List Char), target.IsWellFormed ∧
      (∀ c ∈ lead, Text.isSpace c = true) ∧ (∀ c ∈ gap, Text.isInlineBlank c = true) ∧
      left = lead ++ (target.text ++ gap)) (after value : List Char) :
    read? (String.ofList (left ++ (before ++ '=' :: (after ++ value)))) =
      functionStatement? (Text.trimStart left) := by
  obtain ⟨gap, isGap, shown⟩ := exists_head_sign isBefore plain after value
  rw [← functionStatement?_append isGap _ (shownValue after value), ← shown, read?_eq]
  cases read : ofText? (head (String.ofList (left ++ (before ++ '=' :: (after ++ value))))) with
  | none => exact (Option.or_eq_none_iff.mp read).1.symm
  | some form =>
    rcases statement_or_target_of_ofText? read with statement | ⟨target, formed, found, assigns⟩
    · exact statement.symm
    · refine absurd ?_ noTarget
      obtain ⟨blanks, blank, whole⟩ := assigns
      have bare := Target.isBare formed
      rw [shown, ← List.append_assoc, ← List.append_assoc,
        Text.append_cons_eq_append_cons_iff (by
          rw [List.mem_append, not_or]
          exact ⟨fun member => noSign ((List.dropWhile_suffix _).subset member),
            sign_not_mem_of_blank isGap⟩)
        (by rw [List.mem_append, not_or]; exact ⟨bare.1, sign_not_mem_of_blank blank⟩)] at whole
      obtain ⟨more, isMore, start⟩ := bare.exists_append_of_append_eq isGap blank whole.1
      refine ⟨target, left.takeWhile Text.isSpace, more, formed,
        fun c member => List.mem_takeWhile_imp member, isMore, ?_⟩
      rw [← start, Text.trimStart, List.takeWhile_append_dropWhile]

/-- In front of an opening brace all lines are read alike. -/
theorem read?_of_brace (brace : '\x7b' ∈ left) (after value : List Char) :
    read? (String.ofList (left ++ (before ++ '=' :: (after ++ value)))) =
      ofText? ((Text.trimStart left).takeWhile (· != '\x7b')) := by
  obtain ⟨gap, -, start⟩ := exists_trimStart_append left isBefore
  have inside : '\x7b' ∈ Text.trimStart left := by
    rw [← @List.takeWhile_append_dropWhile _ Text.isSpace left, List.mem_append] at brace
    exact brace.resolve_left fun blank => absurd (List.mem_takeWhile_imp blank) (by decide)
  have stops : ¬((Text.trimStart left).takeWhile (· != '\x7b')).length =
      (Text.trimStart left).length := by
    intro full
    rw [← (List.takeWhile_prefix _).eq_of_length full] at inside
    exact absurd (List.mem_takeWhile_imp inside) (by decide)
  rw [read?_eq, head, String.toList_ofList, ← List.append_assoc, trimmed_sign, start,
    List.append_assoc, List.takeWhile_append, if_neg stops]

end Spacing

/-! ### What is shown of a value -/

/-- A text that opens, at once, with a value: with no blank, and neither with the end of a line
nor with that of a statement. -/
def StartsValue (value : List Char) : Prop :=
  ∃ c rest, value = c :: rest ∧ Text.isInlineBlank c = false ∧ c ≠ '\n' ∧ c ≠ ';'

theorem shownValue_of_brace {after rest : List Char}
    (isAfter : ∀ c ∈ after, Text.isInlineBlank c = true) :
    shownValue after ('\x7b' :: rest) = after := by
  have dark : Text.isSpace '\x7b' = false := by decide
  have free : ∀ c ∈ after, (c != '\x7b') = true := fun c member => bne_iff_ne.mpr <| by
    rintro rfl
    exact absurd (isAfter _ member) (by decide)
  rw [shownValue, Text.trimEnd_append_cons dark, Text.trimEnd_cons_of_not_blank dark,
    List.takeWhile_append_of_pos free, List.takeWhile_cons_of_neg (by decide), List.append_nil]

theorem shownValue_of_blank {value : List Char} (blank : Text.trimEnd value = [])
    {after : List Char} (isAfter : ∀ c ∈ after, Text.isInlineBlank c = true) :
    shownValue after value = [] := by
  obtain ⟨blanks, whole, isBlank⟩ := Text.exists_eq_trimEnd_append value
  rw [blank, List.nil_append] at whole
  have all := Text.trimEnd_append_of_blank (List.forall_mem_append.mpr
    ⟨fun c member => Text.isSpace_of_isInlineBlank (isAfter c member), whole ▸ isBlank⟩) []
  rw [shownValue, ← List.nil_append (after ++ value), all]
  rfl

theorem shownValue_of_ne_brace {c : Char} {rest : List Char} (other : c ≠ '\x7b')
    (dark : Text.trimEnd (c :: rest) ≠ []) :
    ∃ shown, ∀ after, (∀ d ∈ after, Text.isInlineBlank d = true) →
      shownValue after (c :: rest) = after ++ c :: shown := by
  obtain ⟨d, more, start⟩ := List.exists_cons_of_ne_nil dark
  obtain ⟨blanks, whole, -⟩ := Text.exists_eq_trimEnd_append (c :: rest)
  rw [start, List.cons_append] at whole
  obtain ⟨rfl, -⟩ := List.cons.inj whole
  refine ⟨more.takeWhile (· != '\x7b'), fun after isAfter => ?_⟩
  have free : ∀ d ∈ after, (d != '\x7b') = true := fun d member => bne_iff_ne.mpr <| by
    rintro rfl
    exact absurd (isAfter _ member) (by decide)
  rw [shownValue, Text.trimEnd_append dark, start, List.takeWhile_append_of_pos free,
    List.takeWhile_cons_of_pos (by simpa using other)]

namespace Target

variable {after : List Char} (isAfter : ∀ c ∈ after, Text.isInlineBlank c = true)

include isAfter

theorem form?_of_blanks (target : Target) :
    target.form? after = if after = [] then none else target.valueForm? := by
  have noFunction : opensFunction after = false := by
    rw [Bool.eq_false_iff, Ne, opensFunction_iff]
    rintro ⟨blanks, rest, -, rfl⟩
    exact absurd (isAfter 'f' (List.mem_append_right _ (List.mem_append_left _ (by decide))))
      (by decide)
  rw [form?, noFunction, if_neg Bool.false_ne_true]
  cases after with
  | nil => rfl
  | cons c rest =>
    have blank := isAfter c List.mem_cons_self
    have value : opensValue (c :: rest) = true := by
      simp only [Text.isInlineBlank, Bool.or_eq_true, beq_iff_eq] at blank
      rcases blank with rfl | rfl <;> rfl
    rw [value, if_pos rfl, if_neg (List.cons_ne_nil c rest)]

theorem form?_append (target : Target) {c : Char} (newline : c ≠ '\n') (semicolon : c ≠ ';')
    (shown : List Char) :
    target.form? (after ++ c :: shown) = target.form? (c :: shown) := by
  have sameFunction : opensFunction (after ++ c :: shown) = opensFunction (c :: shown) := by
    unfold opensFunction
    rw [List.dropWhile_append_of_pos isAfter]
  have here : opensValue (c :: shown) = true := by
    simp [opensValue, newline, semicolon]
  have behind : opensValue (after ++ c :: shown) = true := by
    cases after with
    | nil => exact here
    | cons d rest =>
      have blank := isAfter d List.mem_cons_self
      simp only [Text.isInlineBlank, Bool.or_eq_true, beq_iff_eq] at blank
      rcases blank with rfl | rfl <;> rfl
  rw [form?, form?, sameFunction, here, behind]

end Target

section

variable {left before after otherBefore otherAfter value : List Char} (noSign : '=' ∉ left)
  (isBefore : ∀ c ∈ before, Text.isInlineBlank c = true)
  (isAfter : ∀ c ∈ after, Text.isInlineBlank c = true)
  (isOtherBefore : ∀ c ∈ otherBefore, Text.isInlineBlank c = true)
  (isOtherAfter : ∀ c ∈ otherAfter, Text.isInlineBlank c = true)

include isAfter isOtherAfter

theorem form?_shownValue (starts : StartsValue value) (target : Target)
    (alike : value.head? = some '\x7b' → target.valueForm?.isSome = true →
      (after = [] ↔ otherAfter = [])) :
    target.form? (shownValue after value) = target.form? (shownValue otherAfter value) := by
  obtain ⟨c, rest, rfl, dark, newline, semicolon⟩ := starts
  by_cases blank : Text.trimEnd (c :: rest) = []
  · rw [shownValue_of_blank blank isAfter, shownValue_of_blank blank isOtherAfter]
  · by_cases brace : c = '\x7b'
    · rw [brace, shownValue_of_brace isAfter, shownValue_of_brace isOtherAfter,
        target.form?_of_blanks isAfter, target.form?_of_blanks isOtherAfter]
      cases found : target.valueForm? with
      | none => simp
      | some form => simp only [alike (congrArg some brace) (by rw [found]; rfl)]
    · obtain ⟨shown, isShown⟩ := shownValue_of_ne_brace brace blank
      rw [isShown after isAfter, isShown otherAfter isOtherAfter,
        target.form?_append isAfter newline semicolon,
        target.form?_append isOtherAfter newline semicolon]

include noSign isBefore isOtherBefore

theorem read?_ofList_spacing_iff (starts : StartsValue value) :
    read? (String.ofList (left ++ (before ++ '=' :: (after ++ value)))) =
        read? (String.ofList (left ++ (otherBefore ++ '=' :: (otherAfter ++ value)))) ↔
      (value.head? = some '\x7b' → NamesEntity left → (after = [] ↔ otherAfter = [])) := by
  constructor
  · rintro same brace ⟨target, lead, gap, formed, named, isLead, isGap, whole⟩
    obtain ⟨rest, rfl⟩ : ∃ rest, value = '\x7b' :: rest := by
      obtain ⟨c, rest, rfl, -⟩ := starts
      exact ⟨rest, by rw [Option.some.inj brace]⟩
    rw [read?_of_target isBefore formed isLead isGap whole, shownValue_of_brace isAfter,
      read?_of_target isOtherBefore formed isLead isGap whole, shownValue_of_brace isOtherAfter,
      target.form?_of_blanks isAfter, target.form?_of_blanks isOtherAfter] at same
    obtain ⟨form, found⟩ := Option.isSome_iff_exists.mp named
    by_cases none : after = [] <;> by_cases otherNone : otherAfter = [] <;>
      simp [none, otherNone, found] at same ⊢
  · intro alike
    by_cases brace : '\x7b' ∈ left
    · rw [read?_of_brace isBefore brace, read?_of_brace isOtherBefore brace]
    · by_cases hasTarget : ∃ (target : Target) (lead gap : List Char), target.IsWellFormed ∧
          (∀ c ∈ lead, Text.isSpace c = true) ∧ (∀ c ∈ gap, Text.isInlineBlank c = true) ∧
          left = lead ++ (target.text ++ gap)
      · obtain ⟨target, lead, gap, formed, isLead, isGap, whole⟩ := hasTarget
        rw [read?_of_target isBefore formed isLead isGap whole,
          read?_of_target isOtherBefore formed isLead isGap whole]
        refine form?_shownValue isAfter isOtherAfter starts target fun opens named => ?_
        exact alike opens ⟨target, lead, gap, formed, named, isLead, isGap, whole⟩
      · rw [read?_of_no_target isBefore noSign brace hasTarget,
          read?_of_no_target isOtherBefore noSign brace hasTarget]

end

/-- Whether a text is made of spaces and tabs. -/
def IsGap (text : String) : Prop :=
  ∀ c ∈ text.toList, Text.isInlineBlank c = true

instance (text : String) : Decidable (IsGap text) :=
  decidable_of_iff (text.toList.all Text.isInlineBlank = true) List.all_eq_true

/-- The blanks around the sign of an assignment make no difference to how a line is read, but for
one thing: in front of a brace a blank behind the sign is all that is seen of the value. So what
matters there, if the text in front of the sign names an entity, is whether there is one. -/
theorem read?_spacing_iff {left before after otherBefore otherAfter value : String}
    (noSign : '=' ∉ left.toList) (isBefore : IsGap before) (isAfter : IsGap after)
    (isOtherBefore : IsGap otherBefore) (isOtherAfter : IsGap otherAfter)
    (starts : StartsValue value.toList) :
    read? (left ++ before ++ "=" ++ after ++ value) =
        read? (left ++ otherBefore ++ "=" ++ otherAfter ++ value) ↔
      (value.toList.head? = some '\x7b' → NamesEntity left.toList →
        (after = "" ↔ otherAfter = "")) := by
  have line : ∀ before after : String, left ++ before ++ "=" ++ after ++ value =
      String.ofList (left.toList ++ (before.toList ++ '=' :: (after.toList ++ value.toList))) := by
    intro before after
    rw [← String.toList_inj]
    simp
  rw [line, line, read?_ofList_spacing_iff noSign isBefore isAfter isOtherBefore isOtherAfter
    starts, String.toList_eq_nil_iff, String.toList_eq_nil_iff]

/-- In front of a brace, one blank behind the sign is as good as two. -/
theorem read?_spacing_iff_prototype :
    '=' ∉ "Tree.prototype.root".toList ∧ IsGap "" ∧ IsGap " " ∧ IsGap "\t" ∧ IsGap "\t " ∧
      StartsValue "\x7b".toList ∧
      read? ("Tree.prototype.root" ++ "" ++ "=" ++ " " ++ "\x7b") =
        read? ("Tree.prototype.root" ++ "\t" ++ "=" ++ "\t " ++ "\x7b") := by
  have noSign : '=' ∉ "Tree.prototype.root".toList := by decide
  have starts : StartsValue "\x7b".toList := ⟨'\x7b', [], rfl, by decide, by decide, by decide⟩
  have none : IsGap "" := by decide
  have space : IsGap " " := by decide
  have tab : IsGap "\t" := by decide
  have both : IsGap "\t " := by decide
  exact ⟨noSign, none, space, tab, both, starts,
    (read?_spacing_iff noSign none space tab both starts).mpr fun _ _ => by decide⟩

/-- Without a blank behind the sign, an object is not seen. -/
theorem spacing_matters_object :
    '=' ∉ "var tree".toList ∧ IsGap "" ∧ IsGap " " ∧ StartsValue "\x7b".toList ∧
      read? ("var tree" ++ " " ++ "=" ++ " " ++ "\x7b") = some (.declaration "tree") ∧
      read? ("var tree" ++ "" ++ "=" ++ "" ++ "\x7b") = none :=
  ⟨by decide, by decide, by decide, ⟨'\x7b', [], rfl, by decide, by decide, by decide⟩, by decide,
    by decide⟩

end LineForm

end DocEntities
