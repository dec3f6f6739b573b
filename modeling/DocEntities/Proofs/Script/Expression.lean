/-
This file says what the parsers of expressions read. An expression starts where its first token
does, and what is attached to it behind, an access, a call or an operator, starts there as well.
Only a function holds what is one level deeper, and something of it always stands before that.
-/

import DocEntities.Proofs.Script.Grammar

namespace DocEntities.Script

open Outline

variable {source : List Char} {cursor first middle : Cursor}

/-! ### The forms of expressions -/

namespace ReadsExpr

variable {low : Nat} {expr : Expr}

theorem name (word : String) (isOf : first.Of source)
    (taken : Reads source (first.offset + 1) .nil cursor) :
    ReadsExpr source first.offset (.name first.here.position word) cursor where
  reads := taken.site isOf
  starts := rfl
  pattern := by
    rintro _ ⟨⟩
    exact ⟨taken.weaken, taken.weaken⟩

theorem superMember {key : Key} (isOf : first.Of source)
    (read : Reads source (first.offset + 1) (ofKey key) cursor) :
    ReadsExpr source first.offset (.superMember first.here.position key) cursor where
  reads := read.site isOf
  starts := rfl
  pattern := by
    rintro _ ⟨⟩
    exact ⟨read.weaken, read.site isOf⟩

/-- Parentheses around an expression. -/
theorem paren {inner : Expr} (isOf : first.Of source)
    (read : Reads source (first.offset + 1) (ofExpr inner) cursor) :
    ReadsExpr source first.offset (.paren first.here.position inner) cursor where
  reads := read.site isOf
  starts := rfl
  pattern pattern found := by
    have same : pattern = .expr (.paren first.here.position inner) := by
      simp only [Expr.pattern?] at found
      split at found <;> cases found <;> rfl
    rw [same]
    exact ⟨read.weaken, read.site isOf⟩

theorem array {parts : List Part} (isOf : first.Of source)
    (opened : Reads source (first.offset + 1) .nil middle)
    (read : ReadsParts source middle.offset parts cursor) :
    ReadsExpr source first.offset (.array first.here.position parts) cursor where
  reads := (opened.follow read.reads).site isOf
  starts := rfl
  pattern pattern found := by
    obtain ⟨patterns, isPatterns, rfl⟩ := Option.map_eq_some_iff.mp found
    have group := opened.weaken.follow (read.patterns patterns isPatterns)
    exact ⟨group, group⟩

theorem object {entries : List Entry} (isOf : first.Of source)
    (opened : Reads source (first.offset + 1) .nil middle)
    (read : ReadsEntries source middle.offset entries cursor) :
    ReadsExpr source first.offset (.object first.here.position entries) cursor where
  reads := (opened.follow read.reads).site isOf
  starts := rfl
  pattern pattern found := by
    obtain ⟨patterns, isPatterns, rfl⟩ := Option.map_eq_some_iff.mp found
    have group := opened.weaken.follow (read.patterns patterns isPatterns)
    exact ⟨group, group⟩

/-- Anything else, from its first token on. -/
theorem compound {parts : List Part} (isOf : first.Of source)
    (read : Reads source (first.offset + 1) (ofParts parts) cursor) :
    ReadsExpr source first.offset (.compound first.here.position parts) cursor :=
  of_none (read.site isOf) rfl rfl

/-- An operator before or behind its operand. -/
theorem enclose (isOf : first.Of source) (passed : Reads source first.offset .nil middle)
    (read : ReadsExpr source middle.offset expr cursor) :
    ReadsExpr source first.offset (.compound first.here.position [.expr expr]) cursor := by
  have ordered : first.offset < cursor.offset :=
    Nat.lt_of_le_of_lt passed.spans.ordered read.mark.2
  exact of_none ((passed.follow read.reads).ofPart.single isOf.start rfl ordered rfl) rfl rfl

theorem member {key : Key} (read : ReadsExpr source low expr middle)
    (later : Reads source middle.offset (ofKey key) cursor) :
    ReadsExpr source low (.member expr.start expr key) cursor where
  reads := read.extend later rfl
  starts := read.starts
  pattern := by
    rintro _ ⟨⟩
    exact ⟨read.reads.append later, read.extend later rfl⟩

/-- Parts behind an expression. -/
theorem compoundBehind {parts : List Part} (read : ReadsExpr source low expr middle)
    (later : Reads source middle.offset (ofParts parts) cursor) :
    ReadsExpr source low (.compound expr.start (.expr expr :: parts)) cursor :=
  of_none (read.extend later rfl) read.starts rfl

theorem access {key : Key} (chained : Bool) (read : ReadsExpr source low expr middle)
    (later : Reads source middle.offset (ofKey key) cursor) :
    ReadsExpr source low (Grammar.access chained expr key) cursor := by
  unfold Grammar.access
  split
  · refine read.compoundBehind (later.congr fun depth => ?_)
    cases key <;> simp [Grammar.keyParts, ofParts, ofPart, ofKey]
  · exact read.member later

theorem called {arguments : List Part} (chained : Bool) (read : ReadsExpr source low expr middle)
    (later : Reads source middle.offset (ofParts arguments) cursor) :
    ReadsExpr source low (Grammar.called chained expr arguments) cursor := by
  unfold Grammar.called
  split
  · exact read.compoundBehind later
  · exact of_none (read.extend later rfl) read.starts rfl

/-- An assignment to the pattern that an expression is. -/
theorem assign {target : Pattern} {value : Expr} {behind : Cursor} (isOf : first.Of source)
    (read : ReadsExpr source first.offset expr cursor) (isTarget : expr.pattern? = some target)
    (passed : Reads source cursor.offset .nil middle)
    (valueRead : ReadsExpr source middle.offset value behind) :
    ReadsExpr source first.offset (.assign first.here.position target value) behind where
  reads := by
    have inside := (read.pattern target isTarget).1.append (passed.follow valueRead.reads)
    have ordered : first.offset < behind.offset := Nat.lt_of_lt_of_le read.mark.2
      (Nat.le_trans passed.spans.ordered (Nat.le_of_lt valueRead.mark.2))
    exact (inside.within _).single isOf.start rfl ordered (Shape.isProperty_ofExpr _)
  starts := rfl
  pattern := by
    rintro _ ⟨⟩
    have later := passed.follow valueRead.reads
    exact ⟨(read.pattern target isTarget).1.append later,
      (read.pattern target isTarget).2.append later⟩

end ReadsExpr

namespace Grammar

open DocEntities.Script.Parser

variable {below : Grammar}

/-! ### Lists of expressions -/

theorem reads_argument (sound : below.Sound source) (context : Context)
    (isOf : cursor.Of source) :
    Ends (below.argument context) cursor fun part => ReadsParts source cursor.offset [part] := by
  unfold argument
  refine ends_takeSign isOf (fun _ taken => ?_) ?_
  · refine (sound.assignment _ _ taken.isOf).bind fun expr _ read => .pure ?_
    exact .follow taken.weaken (.ofSpread read)
  · exact (sound.assignment _ _ isOf).bind fun expr _ read => .pure (.ofExpr read)

theorem reads_argumentsHere (sound : below.Sound source) (context : Context)
    (isOf : cursor.Of source) :
    Ends (below.argumentsHere context) cursor (ReadsParts source cursor.offset) := by
  unfold argumentsHere
  refine ends_takeSign isOf (fun _ closed => .pure (.nil closed.weaken)) ?_
  refine (reads_argument sound context isOf).bind fun head _ read => ?_
  refine ends_listRest read.reads.isOf (fun _ taken => ?_) fun _ closed => read.close closed
  exact (sound.arguments _ _ taken.isOf).mono fun _ _ rest => (read.close taken).cons rest

theorem reads_elementsHere (sound : below.Sound source) (context : Context)
    (isOf : cursor.Of source) :
    Ends (below.elementsHere context) cursor (ReadsParts source cursor.offset) := by
  unfold elementsHere
  refine ends_takeSign isOf (fun _ closed => .pure (.nil closed.weaken)) ?_
  refine ends_takeSign isOf (fun _ taken => ?_) ?_
  · exact (sound.elements _ _ taken.isOf).mono fun _ _ rest => .follow taken.weaken rest
  refine (reads_argument sound context isOf).bind fun head _ read => ?_
  refine ends_listRest read.reads.isOf (fun _ taken => ?_) fun _ closed => read.close closed
  exact (sound.elements _ _ taken.isOf).mono fun _ _ rest => (read.close taken).cons rest

theorem reads_groupHere (sound : below.Sound source) (context : Context)
    (isOf : cursor.Of source) :
    Ends (below.groupHere context) cursor fun found =>
      ReadsParts source cursor.offset found.1 := by
  unfold groupHere
  refine ends_takeSign isOf (fun _ closed => .pure (.nil closed.weaken)) ?_
  refine ends_takeSign isOf (fun _ taken => ?_) ?_
  · refine (sound.pattern _ _ taken.isOf).bind fun last _ read => ?_
    refine (reads_sign ")" read.isOf).bind fun _ _ closed => .pure ?_
    exact .ofPattern (taken.weaken.follow (read.close closed.weaken))
  · refine (sound.assignment _ _ isOf).bind fun head _ read => ?_
    have part := ReadsParts.ofExpr read
    refine ends_listRest read.isOf (fun _ taken => ?_) fun _ closed => part.close closed
    exact (sound.group _ _ taken.isOf).mono fun _ _ rest => (part.close taken).cons rest

theorem reads_sequenceHere (sound : below.Sound source) (context : Context)
    (isOf : cursor.Of source) :
    Ends (below.sequenceHere context) cursor fun parts =>
      Reads source cursor.offset (ofParts parts) := by
  unfold sequenceHere
  refine ends_takeSign isOf (fun _ taken => ?_) (.pure (.stay isOf))
  refine (sound.assignment _ _ taken.isOf).bind fun head _ read => ?_
  refine (sound.sequence _ _ read.isOf).bind fun rest _ later => .pure ?_
  exact taken.weaken.follow (read.reads.append later)

/-! ### Functions and classes -/

theorem reads_arrowBody (sound : below.Sound source) (context : Context) (isAsync : Bool)
    (isOf : cursor.Of source) :
    Ends (below.arrowBody context isAsync) cursor fun parts =>
      Reads source cursor.offset (ofParts parts) := by
  unfold arrowBody
  refine (reads_sign "=>" isOf).bind fun _ _ arrow => ?_
  refine ends_takeSign arrow.isOf (fun _ opened => ?_) ?_
  · refine (sound.statements _ _ opened.isOf).bind fun statements _ body => .pure ?_
    rw [ofParts_statements]
    exact (arrow.weaken.close opened.weaken).follow body
  · refine (sound.assignment _ _ arrow.isOf).bind fun value _ read => .pure ?_
    exact (arrow.weaken.follow read.reads).ofPart

theorem ends_atArrow {α : Type} {parser : Bool → Parser α} {post : α → Cursor → Prop}
    (later : ∀ found, Ends (parser found) cursor post) : Ends (atArrow >>= parser) cursor post :=
  later _

theorem reads_functionExpr (sound : below.Sound source) (isAsync : Bool) (isOf : first.Of source)
    (passed : Reads source first.offset .nil cursor) :
    Ends (below.functionExpr first.here.position isAsync) cursor
      (ReadsExpr source first.offset) := by
  unfold functionExpr
  refine (reads_word "function" passed.isOf).bind fun _ _ taken => ?_
  refine (reads_takeSign "*" taken.isOf).bind fun isGenerator _ star => ?_
  refine .get (ends_skip star.isOf fun _ skipped => ?_)
  refine (reads_functionRest sound _ _ skipped.isOf).bind fun function _ read => .pure ?_
  have opened : Reads source (first.offset + 1) .nil _ :=
    (taken.mono (Nat.succ_le_succ passed.spans.ordered)).close (star.close skipped)
  exact .of_none ((opened.follow read.weaken).functionSite isOf) rfl rfl

theorem reads_classRest (sound : below.Sound source) (context : Context)
    (isOf : cursor.Of source) :
    Ends (below.classRest context) cursor fun found =>
      Reads source cursor.offset (ofMembers found.1 ++ ofExpr? found.2) := by
  have body {base : Option Expr} {middle : Cursor}
      (read : Reads source cursor.offset (ofExpr? base) middle) :
      Ends (sign "\x7b" >>= fun _ => below.members context.inner >>= fun members =>
        Pure.pure (members, base)) middle fun found =>
          Reads source cursor.offset (ofMembers found.1 ++ ofExpr? found.2) := by
    refine (reads_sign "\x7b" read.isOf).bind fun _ _ opened => ?_
    refine (sound.members _ _ opened.isOf).bind fun members _ inside => .pure ?_
    exact read.swap (opened.weaken.follow inside)
  unfold classRest
  refine ends_takeWord isOf (fun _ taken => ?_) (.value (body (.stay isOf)))
  refine (sound.chain _ _ _ taken.isOf).bind fun base _ read => .value ?_
  exact body (taken.weaken.follow read.reads)

theorem reads_classExpr (sound : below.Sound source) (context : Context)
    (isOf : cursor.Of source) :
    Ends (below.classExpr context cursor.here.position) cursor
      (ReadsExpr source cursor.offset) := by
  unfold classExpr
  refine (reads_word "class" isOf).bind fun _ _ taken => ?_
  refine .get (ends_skip taken.isOf fun _ skipped => ?_)
  refine (reads_classRest sound context skipped.isOf).bind fun found _ read => .pure ?_
  exact .of_none (((taken.close skipped).follow read).site isOf) rfl rfl

/-! ### Primary expressions -/

theorem partPatterns?_of_arrowParams? {parts : List Part} {params : List Pattern}
    (found : arrowParams? parts = some params) : partPatterns? parts = some params := by
  obtain ⟨patterns, isPatterns, bound⟩ := Option.bind_eq_some_iff.mp found
  split at bound
  · cases bound
    exact isPatterns
  · cases bound

/-- An arrow function behind its parameters. -/
theorem reads_arrow (sound : below.Sound source) (context : Context) (isAsync : Bool)
    {params : List Pattern} (isOf : first.Of source)
    (read : Reads source (first.offset + 1) (ofPatterns params) cursor) :
    Ends (below.arrowBody context isAsync >>= fun body =>
      Pure.pure (Expr.arrow first.here.position params body)) cursor
        (ReadsExpr source first.offset) := by
  refine (reads_arrowBody sound context isAsync read.isOf).bind fun body _ inside => .pure ?_
  exact .of_none ((read.append inside).functionSite isOf) rfl rfl

theorem reads_parenthesized (sound : below.Sound source) (context : Context)
    (isOf : cursor.Of source) :
    Ends (below.parenthesized context cursor.here.position) cursor
      (ReadsExpr source cursor.offset) := by
  unfold parenthesized
  refine (reads_sign "(" isOf).bind fun _ _ opened => ?_
  refine (sound.group _ _ opened.isOf).bind fun found _ read => ?_
  refine ends_atArrow fun arrow => .ite (fun _ => ?_) fun _ => .ite (fun _ => .failure) fun _ => ?_
  · refine ends_given fun params isParams => reads_arrow sound context false isOf ?_
    exact opened.follow (read.patterns params (partPatterns?_of_arrowParams? isParams))
  split
  case h_1 inner isParts =>
    refine .pure (.paren isOf (opened.follow (read.reads.congr fun depth => ?_)))
    rw [isParts, ofParts, ofParts, marks_append, marks_nil, List.append_nil, ofPart]
  case h_2 head rest _ isParts =>
    refine .ite (fun _ => .pure ?_) fun _ => .failure
    refine .paren isOf (opened.follow (read.reads.again (fun depth => ?_) rfl))
    rw [isParts, ofParts, marks_append, ofPart]
    exact List.mem_append_left _ (start_mem_marks head depth)
  case h_3 => exact .failure

theorem reads_templateHere (sound : below.Sound source) (context : Context) (tagged : Bool)
    (isOf : cursor.Of source) (more : cursor.token ≠ .done) :
    Ends (below.templateHere context tagged) cursor fun parts =>
      Reads source (cursor.offset + 1) (ofParts parts) := by
  unfold templateHere
  refine .get (ends_given fun found _ => ?_)
  refine (reads_seek (isOf.after.advance found.1)).bind fun _ middle sought => ?_
  have opened : Reads source (cursor.offset + 1) .nil middle :=
    sought.mono (Nat.le_trans (isOf.taken more) (Spot.le_offset_advance _ _))
  refine .ite (fun _ => .failure) fun _ => .ite (fun _ => .pure opened) fun _ => ?_
  refine (sound.expression _ _ opened.isOf).bind fun head _ read => ?_
  refine ends_atSign (.ite (fun isSign => ?_) fun _ => .failure)
  refine (sound.template _ _ _ read.isOf (Token.ne_done_of_isSign isSign)).bind fun rest _ later =>
    .pure ?_
  exact opened.follow (read.reads.append later.weaken)

theorem reads_regexLiteral (isOf : cursor.Of source) (more : cursor.token ≠ .done) :
    Ends (regexLiteral cursor.here.position) cursor (ReadsExpr source cursor.offset) := by
  unfold regexLiteral
  refine .get (ends_given fun taken _ => ?_)
  refine (reads_seek ((isOf.here.advance 1).advance taken)).bind fun _ _ sought => .pure ?_
  have slash : cursor.offset < (cursor.here.advance 1).offset :=
    Spot.lt_offset_advance Nat.one_pos (isOf.here.rest_ne_nil isOf.after (isOf.taken more))
  exact .compound isOf (sought.mono (Nat.le_trans slash (Spot.le_offset_advance _ _)))

theorem reads_asyncExpr (sound : below.Sound source) (context : Context) (isOf : cursor.Of source)
    (more : cursor.token ≠ .done) :
    Ends (below.asyncExpr context cursor.here.position) cursor
      (ReadsExpr source cursor.offset) := by
  unfold asyncExpr
  refine ends_peek fun following => .ite (fun _ => ?_) fun _ => .ite (fun _ => ?_) fun _ =>
    .ite (fun _ => ?_) fun _ => ?_
  · exact (reads_next isOf more).bind fun _ _ taken => .pure (.name "async" isOf taken)
  · refine (reads_next isOf more).bind fun _ _ taken => ?_
    exact reads_functionExpr sound true isOf taken.weaken
  · refine (reads_next isOf more).bind fun _ _ taken => ?_
    refine (reads_next_le taken.isOf).bind fun _ _ opened => ?_
    refine (sound.arguments _ _ opened.isOf).bind fun arguments _ read => ?_
    refine ends_atArrow fun arrow => .ite (fun _ => ?_) fun _ => .pure ?_
    · refine ends_given fun params isParams => reads_arrow sound context true isOf ?_
      exact (taken.close opened).follow
        (read.patterns params (partPatterns?_of_arrowParams? isParams))
    · exact ReadsExpr.called false (.name "async" isOf taken) (opened.follow read.reads)
  · refine (reads_next isOf more).bind fun _ _ taken => ?_
    split
    · refine ends_peek fun behind => .ite (fun _ => ?_) fun _ => .pure (.name "async" isOf taken)
      refine (reads_next_le taken.isOf).bind fun _ _ param => ?_
      exact reads_arrow sound context true isOf (taken.close param)
    · exact .pure (.name "async" isOf taken)

theorem reads_superExpr (sound : below.Sound source) (context : Context) (isOf : cursor.Of source)
    (more : cursor.token ≠ .done) :
    Ends (below.superExpr context cursor.here.position) cursor
      (ReadsExpr source cursor.offset) := by
  unfold superExpr
  refine (reads_next isOf more).bind fun _ _ taken => ?_
  refine ends_takeSign taken.isOf (fun _ dot => .get ?_)
    (ends_takeSign taken.isOf (fun _ bracket => ?_) ?_)
  · split
    · refine (reads_next_le dot.isOf).bind fun _ _ word => .pure ?_
      exact .superMember isOf ((taken.close dot.weaken).close word)
    · exact .failure
  · refine (sound.expression _ _ bracket.isOf).bind fun key _ read => ?_
    refine (reads_sign "]" read.isOf).bind fun _ _ closed => .pure ?_
    exact .superMember isOf ((taken.close bracket.weaken).follow (read.reads.close closed.weaken))
  · refine (reads_sign "(" taken.isOf).bind fun _ _ opened => ?_
    refine (sound.arguments _ _ opened.isOf).bind fun arguments _ read => .pure ?_
    exact .compound isOf ((taken.close opened.weaken).follow read.reads)

theorem reads_importExpr (sound : below.Sound source) (context : Context)
    (isOf : cursor.Of source) (more : cursor.token ≠ .done) :
    Ends (below.importExpr context cursor.here.position) cursor
      (ReadsExpr source cursor.offset) := by
  unfold importExpr
  refine (reads_next isOf more).bind fun _ _ taken => ?_
  refine ends_takeSign taken.isOf (fun _ dot => ?_) ?_
  · refine (reads_word "meta" dot.isOf).bind fun _ _ word => .pure ?_
    exact .compound isOf ((taken.close dot.weaken).close word.weaken)
  refine (reads_sign "(" taken.isOf).bind fun _ _ opened => ?_
  refine (reads_argument sound _ opened.isOf).bind fun path middle read => ?_
  have last {options : List Part} {behind : Cursor}
      (later : Reads source middle.offset (ofParts options) behind) :
      Ends (sign ")" >>= fun _ =>
        Pure.pure (Expr.compound cursor.here.position (path :: options))) behind
          (ReadsExpr source cursor.offset) := by
    refine (reads_sign ")" later.isOf).bind fun _ _ closed => .pure ?_
    have inside := read.reads.parts (later.close closed.weaken)
    exact .compound isOf ((taken.close opened.weaken).follow inside)
  refine ends_takeSign read.reads.isOf (fun _ comma => ?_) (.value (last (.stay read.reads.isOf)))
  refine (reads_argument sound _ comma.isOf).bind fun option _ later => .value ?_
  exact last (comma.weaken.follow later.reads)

theorem reads_newExpr (sound : below.Sound source) (context : Context) (isOf : cursor.Of source)
    (more : cursor.token ≠ .done) :
    Ends (below.newExpr context cursor.here.position) cursor (ReadsExpr source cursor.offset) := by
  unfold newExpr
  refine (reads_next isOf more).bind fun _ _ taken => ?_
  refine ends_takeSign taken.isOf (fun _ dot => ?_) ?_
  · refine (reads_word "target" dot.isOf).bind fun _ _ word => .pure ?_
    exact .compound isOf ((taken.close dot.weaken).close word.weaken)
  refine (sound.chain _ _ _ taken.isOf).bind fun callee _ read => ?_
  have opened := taken.follow read.reads
  refine ends_takeSign read.isOf (fun _ bracket => ?_) (.pure ?_)
  · refine (sound.arguments _ _ bracket.isOf).bind fun arguments _ later => .pure ?_
    exact .of_none ((opened.append (bracket.weaken.follow later.reads)).site isOf) rfl rfl
  · exact .of_none ((opened.append (.stay read.isOf)).site isOf) rfl rfl

theorem reads_nameExpr (sound : below.Sound source) (context : Context)
    (isOf : cursor.Of source) :
    Ends (below.nameExpr context cursor.here.position) cursor
      (ReadsExpr source cursor.offset) := by
  unfold nameExpr
  refine (reads_name isOf).bind fun word _ taken => ?_
  refine ends_atArrow fun arrow => .ite (fun _ => ?_) fun _ => .pure (.name word isOf taken)
  exact reads_arrow sound context false isOf taken

theorem reads_elementExpr (sound : below.Sound source) (context : Context)
    (isOf : cursor.Of source) :
    Ends (below.elementExpr context cursor.here.position) cursor
      (ReadsExpr source cursor.offset) := by
  unfold elementExpr
  refine .get (.ite (fun _ => .failure) fun _ => ?_)
  refine (sound.element _ _ _ isOf isOf.here).bind fun found _ read => ?_
  refine (reads_seek read.spotOf).bind fun _ behind sought => .pure ?_
  have ordered : found.2.offset ≤ behind.offset := sought.spans.ordered
  have inside : Reads source cursor.offset (ofParts found.1) behind :=
    ⟨sought.isOf, read.spans.mono (Nat.le_refl _) ordered⟩
  exact .of_none (inside.single isOf.start rfl (Nat.lt_of_lt_of_le read.progress ordered) rfl)
    rfl rfl

/-- An expression that is a single token. -/
theorem reads_leaf {expr : Expr} (isOf : cursor.Of source) (more : cursor.token ≠ .done)
    (leaf : ∀ behind, Reads source (cursor.offset + 1) .nil behind →
      ReadsExpr source cursor.offset expr behind) :
    Ends (next >>= fun _ => Pure.pure expr) cursor (ReadsExpr source cursor.offset) :=
  (reads_next isOf more).bind fun _ behind taken => .pure (leaf behind taken)

theorem reads_primary (sound : below.Sound source) (context : Context) (isOf : cursor.Of source) :
    Ends (below.primary context) cursor (ReadsExpr source cursor.offset) := by
  have plain (behind : Cursor) (taken : Reads source (cursor.offset + 1) .nil behind) :
      ReadsExpr source cursor.offset (.compound cursor.here.position []) behind :=
    .compound isOf taken
  unfold primary
  refine .get ?_
  simp only
  split <;> rename_i isToken
  case h_1 => exact reads_functionExpr sound false isOf (.stay isOf)
  case h_2 => exact reads_classExpr sound context isOf
  case h_3 =>
    exact reads_leaf isOf (by simp [isToken]) fun _ taken => .of_none (taken.site isOf) rfl rfl
  case h_4 | h_5 | h_6 => exact reads_leaf isOf (by simp [isToken]) plain
  case h_7 => exact reads_newExpr sound context isOf (by simp [isToken])
  case h_8 => exact reads_superExpr sound context isOf (by simp [isToken])
  case h_9 => exact reads_importExpr sound context isOf (by simp [isToken])
  case h_10 => exact reads_asyncExpr sound context isOf (by simp [isToken])
  case h_11 => exact reads_nameExpr sound context isOf
  case h_12 =>
    exact reads_leaf isOf (by simp [isToken]) fun _ taken => .of_none (taken.site isOf) rfl rfl
  case h_13 | h_14 => exact reads_leaf isOf (by simp [isToken]) plain
  case h_15 =>
    refine (reads_next isOf (by simp [isToken])).bind fun _ behind taken => ?_
    exact ends_atWord (.ite (fun _ => .pure (plain behind taken)) fun _ => .failure)
  case h_16 => exact reads_parenthesized sound context isOf
  case h_17 =>
    refine (reads_next isOf (by simp [isToken])).bind fun _ _ opened => ?_
    exact (sound.elements _ _ opened.isOf).bind fun _ _ read => .pure (.array isOf opened read)
  case h_18 =>
    refine (reads_next isOf (by simp [isToken])).bind fun _ _ opened => ?_
    exact (sound.entries _ _ opened.isOf).bind fun _ _ read => .pure (.object isOf opened read)
  case h_19 =>
    exact (reads_templateHere sound context false isOf (by simp [isToken])).bind fun _ _ read =>
      .pure (.compound isOf read)
  case h_20 | h_21 => exact reads_regexLiteral isOf (by simp [isToken])
  case h_22 => exact reads_elementExpr sound context isOf
  case h_23 => exact .failure

/-! ### Accesses and calls -/

theorem reads_dotKey (isOf : cursor.Of source) :
    Ends dotKey cursor fun key => Reads source cursor.offset (ofKey key) := by
  unfold dotKey
  refine .get ?_
  split
  · exact (reads_next_le isOf).bind fun _ _ passed => .pure passed
  · exact (reads_next_le isOf).bind fun _ _ passed => .pure passed
  · exact .failure

/-- A key in brackets, behind the opening one. -/
theorem reads_bracketKey (sound : below.Sound source) (context : Context) {α : Type}
    {post : α → Cursor → Prop} {parser : Expr → Parser α} (isOf : cursor.Of source)
    (later : ∀ key behind, Reads source cursor.offset (ofKey (.computed key)) behind →
      Ends (parser key) behind post) :
    Ends (below.expression context >>= fun key => sign "]" >>= fun _ => parser key) cursor
      post := by
  refine (sound.expression _ _ isOf).bind fun key _ read => ?_
  refine (reads_sign "]" read.isOf).bind fun _ behind closed => ?_
  exact later key behind (read.reads.close closed.weaken)

theorem reads_subscriptsHere (sound : below.Sound source) (context : Context)
    (calls chained : Bool) {low : Nat} {expr : Expr} (read : ReadsExpr source low expr cursor) :
    Ends (below.subscriptsHere context calls chained expr) cursor (ReadsExpr source low) := by
  unfold subscriptsHere
  refine .get ?_
  split <;> rename_i isToken
  case h_1 =>
    refine (reads_next_le read.isOf).bind fun _ _ dot => ?_
    refine (reads_dotKey dot.isOf).bind fun key _ later => ?_
    exact sound.subscripts _ _ _ _ _ _ (read.access chained (dot.follow later))
  case h_2 =>
    refine .ite (fun _ => .failure) fun _ => ?_
    refine (reads_next_le read.isOf).bind fun _ _ dot => ?_
    refine ends_takeSign dot.isOf (fun _ opened => ?_)
      (ends_takeSign dot.isOf (fun _ opened => ?_) ?_)
    · refine (sound.arguments _ _ opened.isOf).bind fun arguments _ later => ?_
      have behind := (dot.close opened.weaken).follow later.reads
      exact sound.subscripts _ _ _ _ _ _ (read.called true behind)
    · refine reads_bracketKey sound _ opened.isOf fun key _ later => ?_
      have behind := (dot.close opened.weaken).follow later
      exact sound.subscripts _ _ _ _ _ _ (read.access true behind)
    · refine (reads_dotKey dot.isOf).bind fun key _ later => ?_
      exact sound.subscripts _ _ _ _ _ _ (read.access true (dot.follow later))
  case h_3 =>
    refine (reads_next_le read.isOf).bind fun _ _ opened => ?_
    refine reads_bracketKey sound _ opened.isOf fun key _ later => ?_
    exact sound.subscripts _ _ _ _ _ _ (read.access chained (opened.follow later))
  case h_4 =>
    refine .ite (fun _ => .pure read) fun _ => ?_
    refine (reads_next_le read.isOf).bind fun _ _ opened => ?_
    refine (sound.arguments _ _ opened.isOf).bind fun arguments _ later => ?_
    exact sound.subscripts _ _ _ _ _ _ (read.called chained (opened.follow later.reads))
  case h_5 =>
    refine (reads_templateHere sound context true read.isOf (by simp [isToken])).bind
      fun parts _ later => ?_
    exact sound.subscripts _ _ _ _ _ _ (read.compoundBehind later.weaken)
  case h_6 => exact .pure read

theorem reads_chainHere (sound : below.Sound source) (context : Context) (calls : Bool)
    (isOf : cursor.Of source) :
    Ends (below.chainHere context calls) cursor (ReadsExpr source cursor.offset) := by
  unfold chainHere
  refine (reads_primary sound context isOf).bind fun expr _ read => ?_
  exact .ite (fun _ => .failure) fun _ => reads_subscriptsHere sound context calls false read

/-! ### Operators -/

theorem ends_atAwait (context : Context) {α : Type} {parser : Bool → Parser α}
    {post : α → Cursor → Prop} (later : ∀ found, Ends (parser found) cursor post) :
    Ends (atAwait context >>= parser) cursor post := by
  have stays : Ends (atAwait context) cursor fun _ behind => behind = cursor ∧ True := by
    unfold atAwait
    refine ends_atWord (.ite (fun _ => ?_) fun _ => .pure ⟨rfl, trivial⟩)
    split
    · exact .pure ⟨rfl, trivial⟩
    · exact .pure ⟨rfl, trivial⟩
    · exact ends_peek fun _ => .pure ⟨rfl, trivial⟩
  exact stays.look fun found _ => later found

theorem reads_unaryHere (sound : below.Sound source) (context : Context)
    (isOf : cursor.Of source) :
    Ends (below.unaryHere context) cursor (ReadsExpr source cursor.offset) := by
  unfold unaryHere
  refine .get (ends_atAwait context fun awaited => .ite (fun _ => ?_) fun _ => ?_)
  · refine (reads_next_le isOf).bind fun _ _ passed => ?_
    refine (sound.unary _ _ passed.isOf).bind fun operand _ read => ?_
    exact ends_atSign (.ite (fun _ => .failure) fun _ => .pure (.enclose isOf passed read))
  · refine (reads_primary sound context isOf).bind fun expr _ read => ?_
    refine .ite (fun _ => .pure read) fun _ => ?_
    refine (reads_subscriptsHere sound context true false read).bind fun expr _ read => ?_
    refine .get (.ite (fun _ => ?_) fun _ => .pure read)
    refine (reads_next_le read.isOf).bind fun _ _ passed => .pure ?_
    exact .enclose isOf (.stay isOf) (read.close passed)

theorem reads_operandHere (sound : below.Sound source) (context : Context)
    (isOf : cursor.Of source) :
    Ends (below.operandHere context) cursor (ReadsExpr source cursor.offset) := by
  unfold operandHere
  refine (reads_unaryHere sound context isOf).bind fun expr _ read => ?_
  exact .ite (fun _ => .failure) fun _ => .pure read

theorem reads_binaryHere (sound : below.Sound source) (context : Context) (least : Nat)
    {low : Nat} {left : Expr} (read : ReadsExpr source low left cursor) :
    Ends (below.binaryHere context least left) cursor (ReadsExpr source low) := by
  unfold binaryHere
  refine .get ?_
  split
  · exact .pure read
  · refine .ite (fun _ => .pure read) fun _ => ?_
    refine (reads_next_le read.isOf).bind fun _ _ passed => ?_
    refine (sound.unary _ _ passed.isOf).bind fun operand _ operandRead => ?_
    refine (sound.binary _ _ _ _ _ operandRead).bind fun right _ rightRead => ?_
    exact sound.binary _ _ _ _ _ (read.compoundBehind (passed.follow rightRead.reads).ofPart)

theorem reads_yieldExpr (sound : below.Sound source) (context : Context)
    (isOf : cursor.Of source) (more : cursor.token ≠ .done) :
    Ends (below.yieldExpr context cursor.here.position) cursor
      (ReadsExpr source cursor.offset) := by
  unfold yieldExpr
  refine (reads_next isOf more).bind fun _ _ taken => ?_
  refine .get (.ite (fun _ => .pure (.compound isOf taken)) fun _ => ?_)
  refine (reads_takeSign "*" taken.isOf).bind fun _ _ star => ?_
  refine (sound.assignment _ _ star.isOf).bind fun value _ read => .pure ?_
  exact .enclose isOf (taken.weaken.close star) read

theorem reads_conditional (sound : below.Sound source) (context : Context) {low : Nat}
    {condition : Expr} (read : ReadsExpr source low condition cursor) :
    Ends (below.conditional context condition) cursor (ReadsExpr source low) := by
  unfold conditional
  refine ends_takeSign read.isOf (fun _ taken => ?_) (.pure read)
  refine (sound.assignment _ _ taken.isOf).bind fun positive _ positiveRead => ?_
  refine (reads_sign ":" positiveRead.isOf).bind fun _ _ colon => ?_
  refine (sound.assignment _ _ colon.isOf).bind fun negative _ negativeRead => .pure ?_
  have parts : Reads source _ (ofParts [.expr positive, .expr negative]) _ :=
    (positiveRead.reads.close colon.weaken).append negativeRead.reads.ofPart
  exact read.compoundBehind (taken.weaken.follow parts)

theorem reads_assignmentHere (sound : below.Sound source) (context : Context)
    (isOf : cursor.Of source) :
    Ends (below.assignmentHere context) cursor (ReadsExpr source cursor.offset) := by
  unfold assignmentHere
  refine ends_position (ends_atWord (.ite (fun isYield => ?_) fun _ => ?_))
  · have isWord := (Bool.and_eq_true_iff.mp isYield).2
    exact reads_yieldExpr sound context isOf (Token.ne_done_of_isWord isWord)
  refine (reads_unaryHere sound context isOf).bind fun operand _ read => ?_
  refine .ite (fun _ => .pure read) fun _ => ?_
  refine (reads_binaryHere sound context 0 read).bind fun condition _ read => ?_
  refine (reads_conditional sound context read).bind fun left _ read => ?_
  refine .get (.ite (fun _ => ?_) fun _ => .pure read)
  refine ends_given fun target isTarget => ?_
  refine (reads_next_le read.isOf).bind fun _ _ passed => ?_
  refine (sound.assignment _ _ passed.isOf).bind fun value _ valueRead => .pure ?_
  exact .assign isOf read isTarget passed valueRead

theorem reads_expressionHere (sound : below.Sound source) (context : Context)
    (isOf : cursor.Of source) :
    Ends (below.expressionHere context) cursor (ReadsExpr source cursor.offset) := by
  unfold expressionHere
  refine (reads_assignmentHere sound context isOf).bind fun expr _ read => ?_
  refine (reads_sequenceHere sound context read.isOf).bind fun rest _ later => ?_
  split
  · exact .pure (read.close later)
  · exact .pure (read.compoundBehind later)

end Grammar

end DocEntities.Script
