/-
This file says what the parsers of statements and of the items of a module read, and with it what
a whole grammar reads: every outline that comes out of it lies in the stretch of the source it was
read from. So the sites of a program start at places of the source, those that start together are
inside equally many functions, and no two properties start together.
-/

import DocEntities.Proofs.Script.Markup

namespace DocEntities.Script.Grammar

open Outline
open DocEntities.Script.Parser

variable {source : List Char} {below : Grammar} {cursor first : Cursor}

/-! ### Declarations -/

theorem reads_declarator (sound : below.Sound source) (context : Context)
    (isOf : cursor.Of source) :
    Ends (below.declarator context) cursor fun declarator =>
      Reads source cursor.offset (ofDeclarator declarator) := by
  unfold declarator
  refine ends_position ?_
  refine (reads_barePattern sound context isOf).bind fun target _ read => ?_
  refine ends_takeSign read.isOf (fun _ taken => ?_) (.pure ?_)
  · refine (sound.assignment _ _ taken.isOf).bind fun value _ valueRead => .pure ?_
    exact ((read.append (taken.weaken.follow valueRead.reads)).contained _).site isOf
  · exact ((read.append (.stay read.isOf)).contained _).site isOf

theorem reads_declaratorsHere (sound : below.Sound source) (context : Context)
    (isOf : cursor.Of source) :
    Ends (below.declaratorsHere context) cursor fun declarators =>
      Reads source cursor.offset (ofDeclarators declarators) := by
  unfold declaratorsHere
  refine ends_takeSign isOf (fun _ taken => ?_) (.pure (.stay isOf))
  refine (reads_declarator sound context taken.isOf).bind fun head _ read => ?_
  refine (sound.declarators _ _ read.isOf).bind fun rest _ later => .pure ?_
  exact taken.weaken.follow (read.append later)

theorem ends_atVariables {α : Type} {parser : Bool → Parser α} {post : α → Cursor → Prop}
    (later : ∀ found, (found = true → cursor.token ≠ .done) → Ends (parser found) cursor post) :
    Ends (atVariables >>= parser) cursor post := by
  have stays : Ends atVariables cursor fun found behind =>
      behind = cursor ∧ (found = true → cursor.token ≠ .done) := by
    unfold atVariables
    refine ends_atWord (ends_atWord (.ite (fun isWord => .pure ⟨rfl, fun _ => ?_⟩) fun _ => ?_))
    · rcases Bool.or_eq_true_iff.mp isWord with isVar | isConst
      · exact Token.ne_done_of_isWord isVar
      · exact Token.ne_done_of_isWord isConst
    · refine ends_atWord (.ite (fun isWord => ?_) fun _ => .pure ⟨rfl, nofun⟩)
      exact ends_peek fun _ => .pure ⟨rfl, fun _ => Token.ne_done_of_isWord isWord⟩
  exact stays.look later

theorem reads_declaration (sound : below.Sound source) (context : Context)
    (isOf : cursor.Of source) (more : cursor.token ≠ .done) :
    Ends (below.declaration context cursor.here.position) cursor fun statement =>
      Reads source cursor.offset (ofStatement statement) := by
  unfold declaration
  refine (reads_next isOf more).bind fun _ _ taken => ?_
  refine (reads_declarator sound context taken.isOf).bind fun head _ read => ?_
  refine (reads_declaratorsHere sound context read.isOf).bind fun rest _ later => ?_
  refine (reads_semicolon later.isOf).bind fun _ _ closed => ?_
  refine .ite (fun _ => .pure ?_) fun _ => .failure
  exact (taken.follow (read.append (later.close closed))).site isOf

theorem ends_atAsyncFunction {α : Type} {parser : Bool → Parser α} {post : α → Cursor → Prop}
    (later : ∀ found, Ends (parser found) cursor post) :
    Ends (atAsyncFunction >>= parser) cursor post := by
  have stays : Ends atAsyncFunction cursor fun _ behind => behind = cursor ∧ True := by
    unfold atAsyncFunction
    refine ends_atWord (.ite (fun _ => ?_) fun _ => .pure ⟨rfl, trivial⟩)
    exact ends_peek fun _ => .pure ⟨rfl, trivial⟩
  exact stays.look fun found _ => later found

theorem reads_functionParts (sound : below.Sound source) (isOf : cursor.Of source) :
    Ends below.functionParts cursor fun found =>
      Reads source (cursor.offset + 1) (ofPatterns found.2.1 ++ ofStatements found.2.2) := by
  unfold functionParts
  refine (reads_takeWord "async" isOf).bind fun _ _ passed => ?_
  refine (reads_word "function" passed.isOf).bind fun _ _ taken => ?_
  refine (reads_takeSign "*" taken.isOf).bind fun _ _ star => ?_
  refine .get (ends_skip star.isOf fun _ skipped => ?_)
  refine (reads_functionRest sound _ _ skipped.isOf).bind fun function _ read => .pure ?_
  have opened : Reads source (cursor.offset + 1) .nil _ :=
    (taken.mono (Nat.succ_le_succ passed.spans.ordered)).close (star.close skipped)
  exact opened.follow read.weaken

theorem reads_functionStatement (sound : below.Sound source) (isOf : cursor.Of source) :
    Ends (below.functionStatement cursor.here.position) cursor fun statement =>
      Reads source cursor.offset (ofStatement statement) := by
  unfold functionStatement
  refine (reads_functionParts sound isOf).bind fun found _ read => ?_
  exact ends_given fun word _ => .pure (read.functionSite isOf)

theorem reads_classParts (sound : below.Sound source) (context : Context)
    (isOf : cursor.Of source) :
    Ends (below.classParts context) cursor fun found =>
      Reads source (cursor.offset + 1) (ofMembers found.2.1 ++ ofExpr? found.2.2) := by
  unfold classParts
  refine (reads_word "class" isOf).bind fun _ _ taken => ?_
  refine .get (ends_skip taken.isOf fun _ skipped => ?_)
  refine (reads_classRest sound context skipped.isOf).bind fun found _ read => .pure ?_
  exact (taken.close skipped).follow read

theorem reads_classStatement (sound : below.Sound source) (context : Context)
    (isOf : cursor.Of source) :
    Ends (below.classStatement context cursor.here.position) cursor fun statement =>
      Reads source cursor.offset (ofStatement statement) := by
  unfold classStatement
  refine (reads_classParts sound context isOf).bind fun found _ read => ?_
  exact ends_given fun word _ => .pure ((read.within [word]).site isOf)

/-! ### Statements with parts -/

theorem reads_condition (sound : below.Sound source) (context : Context)
    (isOf : cursor.Of source) :
    Ends (below.condition context) cursor fun part =>
      Reads source cursor.offset (ofPart part) := by
  unfold condition
  refine (reads_sign "(" isOf).bind fun _ _ opened => ?_
  refine (sound.expression _ _ opened.isOf).bind fun expr _ read => ?_
  refine (reads_sign ")" read.isOf).bind fun _ _ closed => .pure ?_
  exact opened.weaken.follow (read.reads.close closed.weaken)

theorem reads_block (sound : below.Sound source) (context : Context) (isOf : cursor.Of source) :
    Ends (below.block context) cursor fun parts =>
      Reads source (cursor.offset + 1) (ofParts parts) := by
  unfold block
  refine (reads_sign "\x7b" isOf).bind fun _ _ opened => ?_
  refine (sound.statements _ _ opened.isOf).bind fun statements _ body => .pure ?_
  rw [ofParts_statements]
  exact opened.follow body

theorem reads_ifStatement (sound : below.Sound source) (context : Context)
    (isOf : cursor.Of source) (more : cursor.token ≠ .done) :
    Ends (below.ifStatement context cursor.here.position) cursor fun statement =>
      Reads source cursor.offset (ofStatement statement) := by
  unfold ifStatement
  refine (reads_next isOf more).bind fun _ _ taken => ?_
  refine (reads_condition sound context taken.isOf).bind fun test _ testRead => ?_
  refine (sound.statement _ _ testRead.isOf).bind fun positive _ positiveRead => ?_
  refine ends_takeWord positiveRead.isOf (fun _ otherwise => ?_) (.pure ?_)
  · refine (sound.statement _ _ otherwise.isOf).bind fun negative _ negativeRead => .pure ?_
    have branches :=
      (positiveRead.close otherwise.weaken).ofStatement.parts negativeRead.ofStatement
    exact (taken.follow (testRead.append branches)).site isOf
  · exact (taken.follow (testRead.append positiveRead.ofStatement)).site isOf

theorem reads_optionalExpression (sound : below.Sound source) (context : Context)
    (closing : String) (isOf : cursor.Of source) :
    Ends (below.optionalExpression context closing) cursor fun parts =>
      Reads source cursor.offset (ofParts parts) := by
  unfold optionalExpression
  refine ends_takeSign isOf (fun _ closed => .pure closed.weaken) ?_
  refine (sound.expression _ _ isOf).bind fun expr _ read => ?_
  refine (reads_sign closing read.isOf).bind fun _ _ closed => .pure ?_
  exact (read.close closed.weaken).part

theorem reads_forRest (sound : below.Sound source) (context : Context) {head : List Part}
    (isOf : first.Of source) (read : Reads source (first.offset + 1) (ofParts head) cursor) :
    Ends (below.forRest context first.here.position head) cursor fun statement =>
      Reads source first.offset (ofStatement statement) := by
  unfold forRest
  refine (reads_optionalExpression sound context _ read.isOf).bind fun test _ testRead => ?_
  refine (reads_optionalExpression sound context _ testRead.isOf).bind fun update _ updateRead => ?_
  refine (sound.statement _ _ updateRead.isOf).bind fun body _ bodyRead => .pure ?_
  exact (((read.parts testRead).parts updateRead).parts bodyRead.ofStatement).site isOf

theorem reads_forEachRest (sound : below.Sound source) (context : Context) {head : Part}
    (isOf : first.Of source) (read : Reads source (first.offset + 1) (ofPart head) cursor) :
    Ends (below.forEachRest context first.here.position head) cursor fun statement =>
      Reads source first.offset (ofStatement statement) := by
  have rest {looped : Expr} {middle : Cursor}
      (loopedRead : Reads source cursor.offset (ofParts [.expr looped]) middle) :
      Ends (sign ")" >>= fun _ => below.statement context >>= fun body =>
        Pure.pure (Statement.compound first.here.position [head, .expr looped, .statement body]))
        middle fun statement => Reads source first.offset (ofStatement statement) := by
    refine (reads_sign ")" loopedRead.isOf).bind fun _ _ closed => ?_
    refine (sound.statement _ _ closed.isOf).bind fun body _ bodyRead => .pure ?_
    have parts := (loopedRead.close closed.weaken).parts bodyRead.ofStatement
    exact (read.append parts).site isOf
  unfold forEachRest
  refine ends_takeWord read.isOf (fun _ taken => ?_) ?_
  · refine (sound.expression _ _ taken.isOf).bind fun looped _ loopedRead => ?_
    exact rest (taken.weaken.follow loopedRead.part)
  · refine (reads_word "of" read.isOf).bind fun _ _ taken => ?_
    refine (sound.assignment _ _ taken.isOf).bind fun looped _ loopedRead => ?_
    exact rest (taken.weaken.follow loopedRead.part)

theorem ends_atForEach {α : Type} {parser : Bool → Parser α} {post : α → Cursor → Prop}
    (later : ∀ found, Ends (parser found) cursor post) : Ends (atForEach >>= parser) cursor post :=
  later _

theorem reads_forStatement (sound : below.Sound source) (context : Context)
    (isOf : cursor.Of source) (more : cursor.token ≠ .done) :
    Ends (below.forStatement context cursor.here.position) cursor fun statement =>
      Reads source cursor.offset (ofStatement statement) := by
  unfold forStatement
  refine (reads_next isOf more).bind fun _ _ taken => ?_
  refine (reads_takeWord "await" taken.isOf).bind fun _ _ awaited => ?_
  refine (reads_sign "(" awaited.isOf).bind fun _ _ bracket => ?_
  have opened := (taken.close awaited).close bracket.weaken
  refine ends_takeSign bracket.isOf (fun _ semicolon => ?_) ?_
  · exact reads_forRest sound context isOf (opened.close semicolon.weaken)
  refine ends_atVariables fun isThere _ => .ite (fun _ => ?_) fun _ => ?_
  · refine (reads_next_le bracket.isOf).bind fun _ _ passed => ?_
    refine (reads_declarator sound _ passed.isOf).bind fun head _ read => ?_
    have declared := (opened.close passed).follow read
    refine ends_atForEach fun isThere => .ite (fun _ => ?_) fun _ => ?_
    · exact reads_forEachRest sound context isOf declared
    refine (sound.declarators _ _ read.isOf).bind fun rest _ later => ?_
    refine (reads_sign ";" later.isOf).bind fun _ _ closed => ?_
    refine .ite (fun _ => reads_forRest sound context isOf ?_) fun _ => .failure
    rw [ofParts_declarators]
    exact declared.append (later.close closed.weaken)
  · refine (sound.expression _ _ bracket.isOf).bind fun expr _ read => ?_
    refine ends_atForEach fun isThere => .ite (fun _ => ?_) fun _ => ?_
    · refine ends_given fun pattern isPattern => reads_forEachRest sound context isOf ?_
      exact opened.follow (read.pattern pattern isPattern).2
    · refine (reads_sign ";" read.isOf).bind fun _ _ closed => ?_
      refine reads_forRest sound context isOf ?_
      exact opened.follow (read.close closed.weaken).part

theorem reads_guardedStatement (sound : below.Sound source) (context : Context)
    (isOf : cursor.Of source) (more : cursor.token ≠ .done) :
    Ends (below.guardedStatement context cursor.here.position) cursor fun statement =>
      Reads source cursor.offset (ofStatement statement) := by
  unfold guardedStatement
  refine (reads_next isOf more).bind fun _ _ taken => ?_
  refine (reads_condition sound context taken.isOf).bind fun test _ testRead => ?_
  refine (sound.statement _ _ testRead.isOf).bind fun body _ bodyRead => .pure ?_
  exact (taken.follow (testRead.append bodyRead.ofStatement)).site isOf

/-- The condition of a `do` loop stands behind its body. -/
theorem reads_doStatement (sound : below.Sound source) (context : Context)
    (isOf : cursor.Of source) (more : cursor.token ≠ .done) :
    Ends (below.doStatement context cursor.here.position) cursor fun statement =>
      Reads source cursor.offset (ofStatement statement) := by
  unfold doStatement
  refine (reads_next isOf more).bind fun _ _ taken => ?_
  refine (sound.statement _ _ taken.isOf).bind fun body _ bodyRead => ?_
  refine (reads_word "while" bodyRead.isOf).bind fun _ _ keyword => ?_
  refine (reads_condition sound context keyword.isOf).bind fun test _ testRead => ?_
  refine (reads_takeSign ";" testRead.isOf).bind fun _ _ closed => .pure ?_
  have test := keyword.weaken.follow (testRead.close closed)
  exact (taken.follow (bodyRead.ofStatement.swap test)).site isOf

theorem reads_returnStatement (sound : below.Sound source) (context : Context)
    (isOf : cursor.Of source) (more : cursor.token ≠ .done) :
    Ends (below.returnStatement context cursor.here.position) cursor fun statement =>
      Reads source cursor.offset (ofStatement statement) := by
  unfold returnStatement
  refine (reads_next isOf more).bind fun _ _ taken => ?_
  refine .get (.ite (fun _ => ?_) fun _ => ?_)
  · refine (reads_semicolon taken.isOf).bind fun _ _ closed => .pure ?_
    exact (taken.close closed).site isOf
  · refine (sound.expression _ _ taken.isOf).bind fun expr _ read => ?_
    refine (reads_semicolon read.isOf).bind fun _ _ closed => .pure ?_
    exact (taken.follow (read.close closed).part).site isOf

theorem reads_throwStatement (sound : below.Sound source) (context : Context)
    (isOf : cursor.Of source) (more : cursor.token ≠ .done) :
    Ends (below.throwStatement context cursor.here.position) cursor fun statement =>
      Reads source cursor.offset (ofStatement statement) := by
  unfold throwStatement
  refine (reads_next isOf more).bind fun _ _ taken => ?_
  refine ends_onNewLine fun newline => .ite (fun _ => .failure) fun _ => ?_
  refine (sound.expression _ _ taken.isOf).bind fun expr _ read => ?_
  refine (reads_semicolon read.isOf).bind fun _ _ closed => .pure ?_
  exact (taken.follow (read.close closed).part).site isOf

theorem reads_jumpStatement (isOf : cursor.Of source) (more : cursor.token ≠ .done) :
    Ends (jumpStatement cursor.here.position) cursor fun statement =>
      Reads source cursor.offset (ofStatement statement) := by
  unfold jumpStatement
  refine (reads_next isOf more).bind fun _ _ taken => ?_
  refine .get (ends_skip taken.isOf fun _ skipped => ?_)
  refine (reads_semicolon skipped.isOf).bind fun _ _ closed => .pure ?_
  exact ((taken.close skipped).close closed).site isOf

theorem reads_handler (sound : below.Sound source) (context : Context) (isOf : cursor.Of source) :
    Ends (below.handler context) cursor fun found =>
      Reads source cursor.offset (ofParts (found.getD [])) := by
  unfold handler
  refine ends_takeWord isOf (fun _ taken => ?_) (.pure (.stay isOf))
  have body {param : List Part} {middle : Cursor}
      (read : Reads source cursor.offset (ofParts param) middle) :
      Ends (below.block context >>= fun block => Pure.pure (some (param ++ block))) middle
        fun found => Reads source cursor.offset (ofParts (found.getD [])) :=
    (reads_block sound context read.isOf).bind fun _ _ block => .pure (read.parts block.weaken)
  refine ends_takeSign taken.isOf (fun _ opened => ?_) (.value (body taken.weaken))
  refine (sound.pattern _ _ opened.isOf).bind fun found _ read => ?_
  refine (reads_sign ")" read.isOf).bind fun _ _ closed => .value (body ?_)
  have param : Reads source _ (ofParts [.pattern found]) _ := (read.close closed.weaken).ofPart
  exact (taken.weaken.close opened.weaken).follow param

theorem reads_tryStatement (sound : below.Sound source) (context : Context)
    (isOf : cursor.Of source) (more : cursor.token ≠ .done) :
    Ends (below.tryStatement context cursor.here.position) cursor fun statement =>
      Reads source cursor.offset (ofStatement statement) := by
  unfold tryStatement
  refine (reads_next isOf more).bind fun _ _ taken => ?_
  refine (reads_block sound context taken.isOf).bind fun tried _ triedRead => ?_
  refine (reads_handler sound context triedRead.isOf).bind fun caught _ caughtRead => ?_
  have both := taken.follow (triedRead.weaken.parts caughtRead)
  refine ends_takeWord caughtRead.isOf (fun _ word => ?_) ?_
  · refine (reads_block sound context word.isOf).bind fun block _ read => .pure ?_
    exact (both.parts (word.weaken.follow read.weaken)).site isOf
  · refine ends_given fun found isFound => .pure ?_
    rw [isFound] at both
    exact both.site isOf

theorem reads_caseBodyHere (sound : below.Sound source) (context : Context)
    (isOf : cursor.Of source) :
    Ends (below.caseBodyHere context) cursor fun parts =>
      Reads source cursor.offset (ofParts parts) := by
  unfold caseBodyHere
  refine ends_atWord (ends_atWord (ends_atSign ?_))
  refine .ite (fun _ => .pure (.stay isOf)) fun _ => ?_
  refine (sound.statement _ _ isOf).bind fun head _ read => ?_
  exact (sound.caseBody _ _ read.isOf).bind fun rest _ later => .pure (read.append later)

theorem reads_casesHere (sound : below.Sound source) (context : Context)
    (isOf : cursor.Of source) :
    Ends (below.casesHere context) cursor fun parts =>
      Reads source cursor.offset (ofParts parts) := by
  have rest {test : List Part} {middle : Cursor}
      (read : Reads source cursor.offset (ofParts test) middle) :
      Ends (sign ":" >>= fun _ => below.caseBody context >>= fun body =>
        below.cases context >>= fun later => Pure.pure (test ++ body ++ later)) middle
          fun parts => Reads source cursor.offset (ofParts parts) := by
    refine (reads_sign ":" read.isOf).bind fun _ _ colon => ?_
    refine (sound.caseBody _ _ colon.isOf).bind fun body _ bodyRead => ?_
    refine (sound.cases _ _ bodyRead.isOf).bind fun later _ laterRead => .pure ?_
    exact ((read.close colon.weaken).parts bodyRead).parts laterRead
  unfold casesHere
  refine ends_takeSign isOf (fun _ closed => .pure closed.weaken) ?_
  refine ends_takeWord isOf (fun _ taken => .value (rest taken.weaken)) ?_
  refine (reads_word "case" isOf).bind fun _ _ taken => ?_
  refine (sound.expression _ _ taken.isOf).bind fun test _ read => .value (rest ?_)
  exact taken.weaken.follow read.part

theorem reads_switchStatement (sound : below.Sound source) (context : Context)
    (isOf : cursor.Of source) (more : cursor.token ≠ .done) :
    Ends (below.switchStatement context cursor.here.position) cursor fun statement =>
      Reads source cursor.offset (ofStatement statement) := by
  unfold switchStatement
  refine (reads_next isOf more).bind fun _ _ taken => ?_
  refine (reads_condition sound context taken.isOf).bind fun test _ testRead => ?_
  refine (reads_sign "\x7b" testRead.isOf).bind fun _ _ opened => ?_
  refine (sound.cases _ _ opened.isOf).bind fun cases _ read => .pure ?_
  exact (taken.follow (testRead.append (opened.weaken.follow read))).site isOf

theorem reads_plainStatement (sound : below.Sound source) (context : Context)
    (isOf : cursor.Of source) :
    Ends (below.plainStatement context cursor.here.position) cursor fun statement =>
      Reads source cursor.offset (ofStatement statement) := by
  have rest {labelled : Bool} (more : labelled = true → cursor.token ≠ .done) :
      Ends (if labelled then next >>= fun _ => next >>= fun _ =>
          below.statement context >>= fun statement =>
            Pure.pure (Statement.compound cursor.here.position [.statement statement])
        else below.expressionHere context >>= fun expr => semicolon >>= fun _ =>
          Pure.pure (Statement.expression cursor.here.position expr)) cursor
        fun statement => Reads source cursor.offset (ofStatement statement) := by
    refine .ite (fun isLabel => ?_) fun _ => ?_
    · refine (reads_next isOf (more isLabel)).bind fun _ _ label => ?_
      refine (reads_next_le label.isOf).bind fun _ _ colon => ?_
      refine (sound.statement _ _ colon.isOf).bind fun statement _ read => .pure ?_
      exact ((label.close colon).follow read.ofStatement).site isOf
    · refine (reads_expressionHere sound context isOf).bind fun expr _ read => ?_
      refine (reads_semicolon read.isOf).bind fun _ _ closed => .pure ?_
      have ended := read.close closed
      exact ended.reads.single isOf.start rfl ended.mark.2 (Shape.isProperty_ofExpr expr)
  unfold plainStatement
  refine .get (.ite (fun named => ?_) fun _ => .value (rest nofun))
  exact ends_peek fun following => .value (rest fun _ => Token.ne_done_of_name? named)

theorem reads_statementHere (sound : below.Sound source) (context : Context)
    (isOf : cursor.Of source) :
    Ends (below.statementHere context) cursor fun statement =>
      Reads source cursor.offset (ofStatement statement) := by
  unfold statementHere
  refine .get (ends_atVariables fun isThere more => .ite (fun found => ?_) fun _ => ?_)
  · exact reads_declaration sound _ isOf (more found)
  refine ends_atAsyncFunction fun isThere => .ite (fun _ => ?_) fun _ => ?_
  · exact reads_functionStatement sound isOf
  split <;> rename_i isToken
  case h_1 =>
    exact (reads_block sound _ isOf).bind fun _ _ block => .pure (block.site isOf)
  case h_2 =>
    exact (reads_next isOf (by simp [isToken])).bind fun _ _ taken => .pure (taken.site isOf)
  case h_3 => exact reads_functionStatement sound isOf
  case h_4 => exact reads_classStatement sound _ isOf
  case h_5 => exact reads_ifStatement sound _ isOf (by simp [isToken])
  case h_6 => exact reads_forStatement sound _ isOf (by simp [isToken])
  case h_7 | h_8 => exact reads_guardedStatement sound _ isOf (by simp [isToken])
  case h_9 => exact reads_doStatement sound _ isOf (by simp [isToken])
  case h_10 => exact reads_returnStatement sound _ isOf (by simp [isToken])
  case h_11 => exact reads_throwStatement sound _ isOf (by simp [isToken])
  case h_12 | h_13 => exact reads_jumpStatement isOf (by simp [isToken])
  case h_14 =>
    refine (reads_next isOf (by simp [isToken])).bind fun _ _ taken => ?_
    refine (reads_semicolon taken.isOf).bind fun _ _ closed => .pure ?_
    exact (taken.close closed).site isOf
  case h_15 => exact reads_tryStatement sound _ isOf (by simp [isToken])
  case h_16 => exact reads_switchStatement sound _ isOf (by simp [isToken])
  case h_17 => exact reads_plainStatement sound _ isOf

theorem reads_statementsHere (sound : below.Sound source) (context : Context)
    (isOf : cursor.Of source) :
    Ends (below.statementsHere context) cursor fun statements =>
      Reads source cursor.offset (ofStatements statements) := by
  unfold statementsHere
  refine ends_takeSign isOf (fun _ closed => .pure closed.weaken) ?_
  refine (reads_statementHere sound context isOf).bind fun head _ read => ?_
  exact (sound.statements _ _ read.isOf).bind fun rest _ later => .pure (read.append later)

/-! ### Modules -/

theorem reads_moduleName (isOf : cursor.Of source) :
    Ends moduleName cursor fun _ => Reads source cursor.offset .nil := by
  unfold moduleName
  refine .get ?_
  split
  · exact reads_next_le isOf
  · exact reads_next_le isOf
  · exact .failure

/-- A name behind the word `as`, if there is one. -/
theorem ends_renamed {α : Type} {parser : Unit → Parser α} {post : α → Cursor → Prop}
    (isOf : cursor.Of source)
    (later : ∀ behind, Reads source cursor.offset .nil behind → Ends (parser ()) behind post) :
    Ends (takeWord "as" >>= fun isThere =>
      if isThere then moduleName >>= parser else parser ()) cursor post := by
  refine ends_takeWord isOf (fun _ taken => ?_) (later _ (.stay isOf))
  exact (reads_moduleName taken.isOf).bind fun _ _ named => later _ (taken.weaken.close named)

theorem reads_specifiersHere (sound : below.Sound source) (isOf : cursor.Of source) :
    Ends below.specifiersHere cursor fun _ => Reads source cursor.offset .nil := by
  unfold specifiersHere
  refine ends_takeSign isOf (fun _ closed => .pure closed.weaken) ?_
  refine (reads_moduleName isOf).bind fun _ _ named => ?_
  refine ends_renamed named.isOf fun _ renamed => ?_
  refine ends_takeSign renamed.isOf (fun _ comma => ?_) ?_
  · exact (sound.specifiers _ comma.isOf).mono fun _ _ rest =>
      ((named.close renamed).close comma.weaken).close rest
  · exact (reads_sign _ renamed.isOf).mono fun _ _ closed =>
      (named.close renamed).close closed.weaken

theorem reads_source (isOf : first.Of source)
    (passed : Reads source (first.offset + 1) .nil cursor) :
    Ends (Grammar.source first.here.position) cursor fun item =>
      Reads source first.offset (ofItem item) := by
  unfold Grammar.source
  refine .get ?_
  split
  · refine (reads_next_le passed.isOf).bind fun _ _ text => ?_
    refine (reads_semicolon text.isOf).bind fun _ _ closed => .pure ?_
    exact ((passed.close text).close closed).site isOf
  · exact .failure

theorem reads_importNames (sound : below.Sound source) (isOf : cursor.Of source) :
    Ends below.importNames cursor fun _ => Reads source cursor.offset .nil := by
  unfold importNames
  refine ends_takeSign isOf (fun _ star => ?_) ?_
  · refine (reads_word "as" star.isOf).bind fun _ _ word => ?_
    refine (reads_name word.isOf).bind fun _ _ named => .pure ?_
    exact (star.weaken.close word.weaken).close named.weaken
  · refine (reads_sign _ isOf).bind fun _ _ opened => ?_
    exact (sound.specifiers _ opened.isOf).mono fun _ _ rest => opened.weaken.close rest

/-- The word `from` and what stands behind it. -/
theorem reads_from (isOf : first.Of source)
    (passed : Reads source (first.offset + 1) .nil cursor) :
    Ends (word "from" >>= fun _ => Grammar.source first.here.position) cursor fun item =>
      Reads source first.offset (ofItem item) :=
  (reads_word "from" passed.isOf).bind fun _ _ word => reads_source isOf (passed.close word.weaken)

theorem reads_importItem (sound : below.Sound source) (isOf : cursor.Of source)
    (more : cursor.token ≠ .done) :
    Ends (below.importItem cursor.here.position) cursor fun item =>
      Reads source cursor.offset (ofItem item) := by
  unfold importItem
  refine (reads_next isOf more).bind fun _ _ taken => .get ?_
  split
  · exact reads_source isOf taken
  · refine (reads_importNames sound taken.isOf).bind fun _ _ names => ?_
    exact reads_from isOf (taken.close names)
  · refine (reads_name taken.isOf).bind fun _ _ named => ?_
    have opened := taken.close named.weaken
    refine ends_takeSign named.isOf (fun _ comma => ?_) (reads_from isOf opened)
    refine (reads_importNames sound comma.isOf).bind fun _ _ names => ?_
    exact reads_from isOf ((opened.close comma.weaken).close names)

theorem reads_defaultItem (sound : below.Sound source) (context : Context)
    (isOf : first.Of source) (passed : Reads source (first.offset + 1) .nil cursor) :
    Ends (below.defaultItem context first.here.position) cursor fun item =>
      Reads source first.offset (ofItem item) := by
  unfold defaultItem
  refine ends_atWord (ends_atAsyncFunction fun isThere => .ite (fun _ => ?_) fun _ => ?_)
  · refine (reads_functionParts sound passed.isOf).bind fun found _ read => .pure ?_
    exact (passed.follow read.weaken).functionSite isOf
  refine ends_atWord (.ite (fun _ => ?_) fun _ => ?_)
  · refine (reads_classParts sound context passed.isOf).bind fun found _ read => .pure ?_
    exact ((passed.follow read.weaken).contained found.1).site isOf
  · refine (sound.assignment _ _ passed.isOf).bind fun expr _ read => ?_
    refine (reads_semicolon read.isOf).bind fun _ _ closed => .pure ?_
    exact (passed.follow (read.close closed).part).site isOf

/-- The sites of an exported declaration are those of the statement but the statement itself. -/
theorem marks_ofStatement (statement : Statement) (depth : Nat) :
    ∃ mark, (ofStatement statement).marks depth =
      mark :: (ofDeclaration statement).marks depth := by
  cases statement <;> exact ⟨_, by rw [ofStatement, marks_single, ofDeclaration]⟩

theorem reads_exportItem (sound : below.Sound source) (context : Context)
    (isOf : cursor.Of source) (more : cursor.token ≠ .done) :
    Ends (below.exportItem context cursor.here.position) cursor fun item =>
      Reads source cursor.offset (ofItem item) := by
  unfold exportItem
  refine (reads_next isOf more).bind fun _ _ taken => ?_
  refine ends_takeWord taken.isOf (fun _ word => ?_) ?_
  · exact reads_defaultItem sound context isOf (taken.close word.weaken)
  refine ends_takeSign taken.isOf (fun _ star => ?_)
    (ends_takeSign taken.isOf (fun _ brace => ?_) ?_)
  · refine ends_renamed star.isOf fun _ renamed => ?_
    exact reads_from isOf ((taken.close star.weaken).close renamed)
  · refine (sound.specifiers _ brace.isOf).bind fun _ _ names => ?_
    have closed := (taken.close brace.weaken).close names
    refine ends_takeWord names.isOf (fun _ word => ?_) ?_
    · exact reads_source isOf (closed.close word.weaken)
    · refine (reads_semicolon names.isOf).bind fun _ _ ended => .pure ?_
      exact (closed.close ended).site isOf
  · refine ends_atVariables fun isVariables _ => ends_atAsyncFunction fun isAsync => ?_
    refine ends_atWord (ends_atWord (.ite (fun _ => ?_) fun _ => .failure))
    refine (sound.statement _ _ taken.isOf).bind fun statement _ read => .pure ?_
    exact (taken.follow (read.tail (marks_ofStatement statement))).site isOf

theorem reads_item (sound : below.Sound source) (context : Context) (isOf : cursor.Of source) :
    Ends (below.item context) cursor fun item => Reads source cursor.offset (ofItem item) := by
  unfold item
  refine ends_position (ends_atWord (.ite (fun isWord => ?_) fun _ => ?_))
  · exact reads_exportItem sound context isOf (Token.ne_done_of_isWord isWord)
  refine ends_atWord (.ite (fun isWord => ends_peek fun following => ?_) fun _ => ?_)
  · refine .ite (fun _ => ?_) fun _ => ?_
    · exact (reads_statementHere sound context isOf).bind fun _ _ read => .pure read
    · exact reads_importItem sound isOf (Token.ne_done_of_isWord isWord)
  · exact (reads_statementHere sound context isOf).bind fun _ _ read => .pure read

theorem reads_itemsHere (sound : below.Sound source) (context : Context)
    (isOf : cursor.Of source) :
    Ends (below.itemsHere context) cursor fun items =>
      Reads source cursor.offset (ofItems items) := by
  unfold itemsHere
  refine .get (.ite (fun _ => .pure (.stay isOf)) fun _ => ?_)
  refine (reads_item sound context isOf).bind fun head _ read => ?_
  exact (sound.items _ _ read.isOf).bind fun rest _ later => .pure (read.append later)

/-! ### Whole sources -/

/-- One level up, the parsers read what they say if those below do. -/
theorem Sound.above (sound : below.Sound source) : below.above.Sound source where
  assignment context _ isOf := reads_assignmentHere sound context isOf
  expression context _ isOf := reads_expressionHere sound context isOf
  unary context _ isOf := reads_operandHere sound context isOf
  binary context least _ _ _ read := reads_binaryHere sound context least read
  subscripts context calls chained _ _ _ read :=
    reads_subscriptsHere sound context calls chained read
  chain context calls _ isOf := reads_chainHere sound context calls isOf
  sequence context _ isOf := reads_sequenceHere sound context isOf
  arguments context _ isOf := reads_argumentsHere sound context isOf
  group context _ isOf := reads_groupHere sound context isOf
  elements context _ isOf := reads_elementsHere sound context isOf
  entries context _ isOf := reads_entriesHere sound context isOf
  members context _ isOf := reads_membersHere sound context isOf
  template context tagged _ isOf more := reads_templateHere sound context tagged isOf more
  element context _ _ isOf spotOf := reads_elementHere sound context isOf spotOf
  attributes context _ _ isOf spotOf := reads_attributesHere sound context isOf spotOf
  children context tag _ _ isOf spotOf := reads_childrenHere sound context tag isOf spotOf
  pattern context _ isOf :=
    (reads_patternHere sound context isOf).mono fun _ _ read => read.weaken
  patternElements context _ isOf := reads_patternElementsHere sound context isOf
  patternEntries context _ isOf := reads_patternEntriesHere sound context isOf
  params context _ isOf := reads_paramsHere sound context isOf
  statement context _ isOf := reads_statementHere sound context isOf
  statements context _ isOf := reads_statementsHere sound context isOf
  declarators context _ isOf := reads_declaratorsHere sound context isOf
  cases context _ isOf := reads_casesHere sound context isOf
  caseBody context _ isOf := reads_caseBodyHere sound context isOf
  specifiers _ isOf := reads_specifiersHere sound isOf
  items context _ isOf := reads_itemsHere sound context isOf

theorem sound_ofDepth (source : List Char) (depth : Nat) : (ofDepth depth).Sound source := by
  induction depth with
  | zero => exact sound_exhausted source
  | succ depth inductionHypothesis => exact inductionHypothesis.above

end DocEntities.Script.Grammar

namespace DocEntities.Script

/-- The first cursor stands on a token of the source. -/
theorem Cursor.of_first? {source : List Char} {elements : Bool} {cursor : Cursor}
    (found : Cursor.first? source elements = some cursor) : cursor.Of source := by
  unfold first? at found
  obtain ⟨gap, passed, onto⟩ := Option.bind_eq_some_iff.mp found
  have opened : ((Spot.first source).advance 0).Of source := Spot.of_first source
  refine (onto_of (Gap.pass_of ?_ passed).1 onto).1
  simp only
  split
  · exact opened.advance _
  · exact opened

/-- The outline of a program lies in its source. -/
theorem exists_spans_of_parse? {code : String} {elements : Bool} {parsed : Parsed}
    (found : parse? code elements = some parsed) :
    ∃ high, Spans (dropByteOrderMark code.toList) 0 high (Outline.ofProgram parsed.program) := by
  obtain ⟨cursor, isCursor, rest⟩ := Option.bind_eq_some_iff.mp found
  obtain ⟨⟨items, last⟩, isItems, equal⟩ := Option.bind_eq_some_iff.mp rest
  cases equal
  have isOf := Cursor.of_first? isCursor
  have read := Grammar.reads_itemsHere (Grammar.sound_ofDepth _ _) _ isOf items last isItems
  exact ⟨last.offset, read.spans.mono (Nat.zero_le _) (Nat.le_refl _)⟩

end DocEntities.Script
