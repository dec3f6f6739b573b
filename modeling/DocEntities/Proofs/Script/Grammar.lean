/-
This file says what the parsers of the grammar read: each one an outline that lies in the stretch
from the cursor it starts at to the cursor it ends at. Of an expression more has to be known,
since an arrow or an equals sign behind it can show that a pattern was meant: whatever pattern
the expression is, its outline lies in the same stretch. The same goes for the entries of an
object and for what stands in brackets.

The statements are about a grammar of any depth. For the grammar below they are assumed, and
shown for the parsers that are made from it; the file ends with those for keys, patterns and
functions.
-/

import DocEntities.Proofs.Script.Cursor

namespace DocEntities.Script

open Outline

variable {source : List Char}

/-! ### Outlines of lists -/

theorem marks_ofParts_append (parts later : List Part) (depth : Nat) :
    (ofParts (parts ++ later)).marks depth =
      (ofParts parts ++ ofParts later).marks depth := by
  induction parts with
  | nil => rfl
  | cons part rest inductionHypothesis =>
    simp only [List.cons_append, ofParts, marks_append, inductionHypothesis, List.append_assoc]

theorem marks_ofPatterns_append (patterns later : List Pattern) (depth : Nat) :
    (ofPatterns (patterns ++ later)).marks depth =
      (ofPatterns patterns ++ ofPatterns later).marks depth := by
  induction patterns with
  | nil => rfl
  | cons pattern rest inductionHypothesis =>
    simp only [List.cons_append, ofPatterns, marks_append, inductionHypothesis, List.append_assoc]

theorem ofParts_statements (statements : List Statement) :
    ofParts (statements.map .statement) = ofStatements statements := by
  induction statements with
  | nil => rfl
  | cons statement rest inductionHypothesis =>
    rw [List.map_cons, ofParts, inductionHypothesis, ofStatements, ofPart]

theorem ofParts_declarators (declarators : List Declarator) :
    ofParts (declarators.map .declarator) = ofDeclarators declarators := by
  induction declarators with
  | nil => rfl
  | cons declarator rest inductionHypothesis =>
    rw [List.map_cons, ofParts, inductionHypothesis, ofDeclarators, ofPart]

theorem marks_ofPatterns_computedPart (key : Key) (depth : Nat) :
    (ofPatterns key.computedPart).marks depth = (ofKey key).marks depth := by
  cases key <;> simp [Key.computedPart, ofPatterns, ofPattern, ofKey]

namespace Reads

variable {low : Nat} {cursor behind : Cursor}

theorem parts {first second : List Part} (reads : Reads source low (ofParts first) cursor)
    (next : Reads source cursor.offset (ofParts second) behind) :
    Reads source low (ofParts (first ++ second)) behind :=
  (reads.append next).congr fun depth => marks_ofParts_append first second depth

theorem patterns {first second : List Pattern} (reads : Reads source low (ofPatterns first) cursor)
    (next : Reads source cursor.offset (ofPatterns second) behind) :
    Reads source low (ofPatterns (first ++ second)) behind :=
  (reads.append next).congr fun depth => marks_ofPatterns_append first second depth

/-- A list of one. -/
theorem ofPart {part : Part} (reads : Reads source low (ofPart part) cursor) :
    Reads source low (ofParts [part]) cursor :=
  reads.congr fun depth => by rw [ofParts, ofParts, marks_append, marks_nil, List.append_nil]

theorem ofStatement {statement : Statement}
    (reads : Reads source low (Outline.ofStatement statement) cursor) :
    Reads source low (ofParts [.statement statement]) cursor :=
  reads.ofPart

theorem ofPattern {pattern : Pattern} (reads : Reads source low (ofPattern pattern) cursor) :
    Reads source low (ofPatterns [pattern]) cursor :=
  reads.congr fun depth => by
    rw [ofPatterns, ofPatterns, marks_append, marks_nil, List.append_nil]

end Reads

/-! ### Expressions, and the patterns that they are -/

/-- An expression has been read from an offset up to a cursor. -/
structure ReadsExpr (source : List Char) (low : Nat) (expr : Expr) (cursor : Cursor) : Prop where
  reads : Reads source low (ofExpr expr) cursor
  starts : expr.start.offset = low
  pattern : ∀ pattern, expr.pattern? = some pattern →
    Reads source low (ofTarget pattern) cursor ∧ Reads source low (Outline.ofPattern pattern) cursor

/-- Arguments or elements have been read. -/
structure ReadsParts (source : List Char) (low : Nat) (parts : List Part) (cursor : Cursor) :
    Prop where
  reads : Reads source low (ofParts parts) cursor
  patterns : ∀ patterns, partPatterns? parts = some patterns →
    Reads source low (ofPatterns patterns) cursor

/-- Entries of an object have been read. -/
structure ReadsEntries (source : List Char) (low : Nat) (entries : List Entry)
    (cursor : Cursor) : Prop where
  reads : Reads source low (ofEntries entries) cursor
  patterns : ∀ patterns, entryPatterns? entries = some patterns →
    Reads source low (ofPatterns patterns) cursor

theorem start_mem_marks (expr : Expr) (depth : Nat) :
    ⟨expr.start, depth, false⟩ ∈ (ofExpr expr).marks depth := by
  have sites := congrArg (List.map Site.mark) (Place.sites_ofExpr ⟨[], depth⟩ expr)
  rw [map_mark_sites, List.map_cons, Site.mark, Shape.isProperty_ofExpr] at sites
  rw [sites]
  exact List.mem_cons_self

namespace ReadsExpr

variable {low : Nat} {expr : Expr} {cursor behind : Cursor}

theorem mark (read : ReadsExpr source low expr cursor) :
    expr.start.Of source ∧ low < cursor.offset := by
  have fit := read.reads.spans.fit 0
  have high := fit.lt_high _ (start_mem_marks expr 0)
  exact ⟨fit.placed _ (start_mem_marks expr 0), by rwa [read.starts] at high⟩

theorem isOf (read : ReadsExpr source low expr cursor) : cursor.Of source :=
  read.reads.isOf

theorem part (read : ReadsExpr source low expr cursor) :
    Reads source low (ofParts [.expr expr]) cursor :=
  read.reads.ofPart

/-- An expression that can be no pattern. -/
theorem of_none (reads : Reads source low (ofExpr expr) cursor) (starts : expr.start.offset = low)
    (none : expr.pattern? = none) : ReadsExpr source low expr cursor :=
  ⟨reads, starts, fun pattern found => by rw [none] at found; cases found⟩

/-- Tokens behind an expression. -/
theorem close (read : ReadsExpr source low expr cursor)
    (next : Reads source cursor.offset .nil behind) : ReadsExpr source low expr behind where
  reads := read.reads.close next
  starts := read.starts
  pattern pattern found :=
    ⟨(read.pattern pattern found).1.close next, (read.pattern pattern found).2.close next⟩

/-- A site that starts with an expression and goes on behind it. -/
theorem extend {tail : Outline} {shape : Shape} (read : ReadsExpr source low expr cursor)
    (later : Reads source cursor.offset tail behind) (plain : shape.isProperty = false) :
    Reads source low (single expr.start shape (ofExpr expr ++ tail)) behind := by
  refine (read.reads.append later).again (fun depth => ?_) plain
  rw [marks_append]
  exact List.mem_append_left _ (start_mem_marks expr depth)

end ReadsExpr

theorem partPatterns?_cons {part : Part} {parts : List Part} {patterns : List Pattern}
    (found : partPatterns? (part :: parts) = some patterns) :
    ∃ first later, partPatterns? [part] = some first ∧ partPatterns? parts = some later ∧
      patterns = first ++ later := by
  cases part with
  | expr expr =>
    simp only [partPatterns?, Option.bind_eq_bind, Option.bind_eq_some_iff] at found
    obtain ⟨first, isFirst, later, isLater, ⟨⟩⟩ := found
    exact ⟨[first], later, by simp [partPatterns?, isFirst], isLater, rfl⟩
  | spread expr =>
    simp only [partPatterns?, Option.bind_eq_bind, Option.bind_eq_some_iff] at found
    obtain ⟨first, isFirst, later, isLater, ⟨⟩⟩ := found
    exact ⟨[.rest first], later, by simp [partPatterns?, isFirst], isLater, rfl⟩
  | pattern pattern =>
    simp only [partPatterns?, Option.bind_eq_bind, Option.bind_eq_some_iff] at found
    obtain ⟨later, isLater, ⟨⟩⟩ := found
    exact ⟨[pattern], later, rfl, isLater, rfl⟩
  | _ => cases found

theorem entryPatterns?_cons {entry : Entry} {entries : List Entry} {patterns : List Pattern}
    (found : entryPatterns? (entry :: entries) = some patterns) :
    ∃ first later, entryPatterns? [entry] = some first ∧ entryPatterns? entries = some later ∧
      patterns = first ++ later := by
  cases entry with
  | pair start key value =>
    simp only [entryPatterns?, Option.bind_eq_bind, Option.bind_eq_some_iff] at found
    obtain ⟨first, isFirst, later, isLater, ⟨⟩⟩ := found
    exact ⟨_, later, by simp [entryPatterns?, isFirst], isLater, rfl⟩
  | shorthand start word value =>
    cases value <;>
      simp only [entryPatterns?, Option.bind_eq_bind, Option.bind_eq_some_iff] at found <;>
      obtain ⟨later, isLater, ⟨⟩⟩ := found <;>
      exact ⟨_, later, rfl, isLater, rfl⟩
  | spread expr =>
    simp only [entryPatterns?, Option.bind_eq_bind, Option.bind_eq_some_iff] at found
    obtain ⟨first, isFirst, later, isLater, ⟨⟩⟩ := found
    exact ⟨[.rest first], later, by simp [entryPatterns?, isFirst], isLater, rfl⟩
  | _ => cases found

namespace ReadsParts

variable {low : Nat} {part : Part} {parts : List Part} {cursor behind : Cursor}

theorem nil (reads : Reads source low .nil cursor) : ReadsParts source low [] cursor where
  reads := reads
  patterns _ found := by
    cases found
    exact reads

theorem cons (read : ReadsParts source low [part] cursor)
    (next : ReadsParts source cursor.offset parts behind) :
    ReadsParts source low (part :: parts) behind where
  reads := read.reads.parts next.reads
  patterns _ found := by
    obtain ⟨first, later, isFirst, isLater, rfl⟩ := partPatterns?_cons found
    exact (read.patterns first isFirst).patterns (next.patterns later isLater)

theorem follow (reads : Reads source low .nil cursor)
    (next : ReadsParts source cursor.offset parts behind) : ReadsParts source low parts behind where
  reads := reads.follow next.reads
  patterns _ found := reads.follow (next.patterns _ found)

theorem close (read : ReadsParts source low parts cursor)
    (next : Reads source cursor.offset .nil behind) : ReadsParts source low parts behind where
  reads := read.reads.close next
  patterns _ found := (read.patterns _ found).close next

theorem ofExpr {expr : Expr} (read : ReadsExpr source low expr cursor) :
    ReadsParts source low [.expr expr] cursor where
  reads := read.reads.ofPart
  patterns patterns found := by
    simp only [partPatterns?, Option.bind_eq_bind, Option.bind_some,
      Option.bind_eq_some_iff] at found
    obtain ⟨pattern, isPattern, ⟨⟩⟩ := found
    exact (read.pattern pattern isPattern).2.ofPattern

theorem ofSpread {expr : Expr} (read : ReadsExpr source low expr cursor) :
    ReadsParts source low [.spread expr] cursor where
  reads := read.reads.ofPart
  patterns patterns found := by
    simp only [partPatterns?, Option.bind_eq_bind, Option.bind_some,
      Option.bind_eq_some_iff] at found
    obtain ⟨pattern, isPattern, ⟨⟩⟩ := found
    exact (read.pattern pattern isPattern).2.ofPattern

theorem ofPattern {pattern : Pattern}
    (reads : Reads source low (Outline.ofPattern pattern) cursor) :
    ReadsParts source low [.pattern pattern] cursor where
  reads := reads.ofPart
  patterns patterns found := by
    cases found
    exact reads.ofPattern

end ReadsParts

namespace ReadsEntries

variable {low : Nat} {entry : Entry} {entries : List Entry} {cursor behind : Cursor}

theorem nil (reads : Reads source low .nil cursor) : ReadsEntries source low [] cursor where
  reads := reads
  patterns _ found := by
    cases found
    exact reads

theorem cons (read : ReadsEntries source low [entry] cursor)
    (next : ReadsEntries source cursor.offset entries behind) :
    ReadsEntries source low (entry :: entries) behind where
  reads := (read.reads.append next.reads).congr fun depth => by simp [ofEntries]
  patterns _ found := by
    obtain ⟨first, later, isFirst, isLater, rfl⟩ := entryPatterns?_cons found
    exact (read.patterns first isFirst).patterns (next.patterns later isLater)

theorem close (read : ReadsEntries source low entries cursor)
    (next : Reads source cursor.offset .nil behind) :
    ReadsEntries source low entries behind where
  reads := read.reads.close next
  patterns _ found := (read.patterns _ found).close next

theorem ofEntry (reads : Reads source low (Outline.ofEntry entry) cursor)
    (patterns : ∀ patterns, entryPatterns? [entry] = some patterns →
      Reads source low (ofPatterns patterns) cursor) : ReadsEntries source low [entry] cursor where
  reads := reads.congr fun depth => by simp [ofEntries]
  patterns := patterns

/-- An entry that can be no pattern. -/
theorem of_none (reads : Reads source low (Outline.ofEntry entry) cursor)
    (none : entryPatterns? [entry] = none) : ReadsEntries source low [entry] cursor :=
  ofEntry reads fun patterns found => by rw [none] at found; cases found

end ReadsEntries

/-! ### Grammars -/

/-- An element has been read up to a spot. -/
structure ReadsElement (source : List Char) (low : Nat) (parts : List Part) (spot : Spot)
    (cursor : Cursor) : Prop where
  isOf : cursor.Of source
  spotOf : spot.Of source
  progress : low < spot.offset
  spans : Spans source low spot.offset (ofParts parts)

/-- The parsers of a grammar read what they say. -/
structure Grammar.Sound (source : List Char) (grammar : Grammar) : Prop where
  assignment : ∀ context cursor, cursor.Of source →
    Ends (grammar.assignment context) cursor (ReadsExpr source cursor.offset)
  expression : ∀ context cursor, cursor.Of source →
    Ends (grammar.expression context) cursor (ReadsExpr source cursor.offset)
  unary : ∀ context cursor, cursor.Of source →
    Ends (grammar.unary context) cursor (ReadsExpr source cursor.offset)
  binary : ∀ context least low left cursor, ReadsExpr source low left cursor →
    Ends (grammar.binary context least left) cursor (ReadsExpr source low)
  subscripts : ∀ context calls chained low expr cursor, ReadsExpr source low expr cursor →
    Ends (grammar.subscripts context calls chained expr) cursor (ReadsExpr source low)
  chain : ∀ context calls cursor, cursor.Of source →
    Ends (grammar.chain context calls) cursor (ReadsExpr source cursor.offset)
  sequence : ∀ context cursor, cursor.Of source →
    Ends (grammar.sequence context) cursor fun parts =>
      Reads source cursor.offset (ofParts parts)
  arguments : ∀ context cursor, cursor.Of source →
    Ends (grammar.arguments context) cursor (ReadsParts source cursor.offset)
  group : ∀ context cursor, cursor.Of source →
    Ends (grammar.group context) cursor fun found => ReadsParts source cursor.offset found.1
  elements : ∀ context cursor, cursor.Of source →
    Ends (grammar.elements context) cursor (ReadsParts source cursor.offset)
  entries : ∀ context cursor, cursor.Of source →
    Ends (grammar.entries context) cursor (ReadsEntries source cursor.offset)
  members : ∀ context cursor, cursor.Of source →
    Ends (grammar.members context) cursor fun members =>
      Reads source cursor.offset (ofMembers members)
  template : ∀ context tagged cursor, cursor.Of source → cursor.token ≠ .done →
    Ends (grammar.template context tagged) cursor fun parts =>
      Reads source (cursor.offset + 1) (ofParts parts)
  element : ∀ context spot cursor, cursor.Of source → spot.Of source →
    Ends (grammar.element context spot) cursor fun found =>
      ReadsElement source spot.offset found.1 found.2
  attributes : ∀ context spot cursor, cursor.Of source → spot.Of source →
    Ends (grammar.attributes context spot) cursor fun found =>
      ReadsElement source spot.offset found.1 found.2.2
  children : ∀ context tag spot cursor, cursor.Of source → spot.Of source →
    Ends (grammar.children context tag spot) cursor fun found =>
      ReadsElement source spot.offset found.1 found.2
  pattern : ∀ context cursor, cursor.Of source →
    Ends (grammar.pattern context) cursor fun pattern =>
      Reads source cursor.offset (Outline.ofPattern pattern)
  patternElements : ∀ context cursor, cursor.Of source →
    Ends (grammar.patternElements context) cursor fun patterns =>
      Reads source cursor.offset (ofPatterns patterns)
  patternEntries : ∀ context cursor, cursor.Of source →
    Ends (grammar.patternEntries context) cursor fun patterns =>
      Reads source cursor.offset (ofPatterns patterns)
  params : ∀ context cursor, cursor.Of source →
    Ends (grammar.params context) cursor fun patterns =>
      Reads source cursor.offset (ofPatterns patterns)
  statement : ∀ context cursor, cursor.Of source →
    Ends (grammar.statement context) cursor fun statement =>
      Reads source cursor.offset (ofStatement statement)
  statements : ∀ context cursor, cursor.Of source →
    Ends (grammar.statements context) cursor fun statements =>
      Reads source cursor.offset (ofStatements statements)
  declarators : ∀ context cursor, cursor.Of source →
    Ends (grammar.declarators context) cursor fun declarators =>
      Reads source cursor.offset (ofDeclarators declarators)
  cases : ∀ context cursor, cursor.Of source →
    Ends (grammar.cases context) cursor fun parts => Reads source cursor.offset (ofParts parts)
  caseBody : ∀ context cursor, cursor.Of source →
    Ends (grammar.caseBody context) cursor fun parts => Reads source cursor.offset (ofParts parts)
  specifiers : ∀ cursor, cursor.Of source →
    Ends grammar.specifiers cursor fun _ => Reads source cursor.offset .nil
  items : ∀ context cursor, cursor.Of source →
    Ends (grammar.items context) cursor fun items => Reads source cursor.offset (ofItems items)

namespace Grammar

open DocEntities.Script.Parser

theorem sound_exhausted (source : List Char) : Grammar.exhausted.Sound source := by
  constructor <;> intros <;> exact .failure

variable {below : Grammar} {cursor : Cursor}

/-! ### Keys -/

theorem reads_key (sound : below.Sound source) (context : Context) (isOf : cursor.Of source) :
    Ends (below.key context) cursor fun found =>
      Reads source (cursor.offset + 1) (ofKey found.1) := by
  unfold key
  refine .get ?_
  simp only
  split
  case h_5 isSign =>
    refine (reads_next isOf (by simp [isSign])).bind fun _ _ opened => ?_
    refine (sound.assignment _ _ opened.isOf).bind fun expr _ inner => ?_
    refine (reads_sign "]" inner.isOf).bind fun _ _ closed => .pure ?_
    exact opened.follow (inner.reads.close closed.weaken)
  case h_6 => exact .failure
  all_goals
    rename_i isToken
    exact (reads_next isOf (by simp [isToken])).bind fun _ _ reads => .pure reads

/-! ### Patterns -/

theorem reads_barePattern (sound : below.Sound source) (context : Context)
    (isOf : cursor.Of source) :
    Ends (below.barePattern context) cursor fun pattern =>
      Reads source (cursor.offset + 1) (Outline.ofPattern pattern) := by
  unfold barePattern
  refine ends_takeSign isOf (fun _ opened => ?_) (ends_takeSign isOf (fun _ opened => ?_) ?_)
  · exact (sound.patternElements _ _ opened.isOf).bind fun _ _ inner => .pure (opened.follow inner)
  · exact (sound.patternEntries _ _ opened.isOf).bind fun _ _ inner => .pure (opened.follow inner)
  · exact (reads_name isOf).bind fun _ _ reads => .pure reads

theorem reads_patternHere (sound : below.Sound source) (context : Context)
    (isOf : cursor.Of source) :
    Ends (below.patternHere context) cursor fun pattern =>
      Reads source (cursor.offset + 1) (Outline.ofPattern pattern) := by
  unfold patternHere
  refine (reads_barePattern sound context isOf).bind fun found middle bare => ?_
  refine ends_takeSign bare.isOf (fun _ taken => ?_) (.pure bare)
  refine (sound.assignment _ _ taken.isOf).bind fun value _ read => .pure ?_
  exact bare.append (taken.weaken.follow read.reads)

/-- What stands behind an element of a list: a comma and more elements, or the sign that closes
the list. -/
theorem ends_listRest {α β : Type} {closing : String} {rest : Parser α} {join : α → β} {alone : β}
    {post : β → Cursor → Prop} (isOf : cursor.Of source)
    (more : ∀ middle, Reads source cursor.offset .nil middle →
      Ends rest middle fun later => post (join later))
    (last : ∀ behind, Reads source cursor.offset .nil behind → post alone behind) :
    Ends (takeSign "," >>= fun isThere =>
      if isThere then rest >>= fun later => Pure.pure (join later)
      else sign closing >>= fun _ => Pure.pure alone) cursor post := by
  refine ends_takeSign isOf (fun middle taken => ?_) ?_
  · exact (more middle taken.weaken).bind fun _ _ holds => .pure holds
  · exact (reads_sign closing isOf).bind fun _ behind closed => .pure (last behind closed.weaken)

theorem reads_patternElementsHere (sound : below.Sound source) (context : Context)
    (isOf : cursor.Of source) :
    Ends (below.patternElementsHere context) cursor fun patterns =>
      Reads source cursor.offset (ofPatterns patterns) := by
  have more {head : Pattern} {middle : Cursor}
      (read : Reads source cursor.offset (Outline.ofPattern head) middle) :
      Ends (takeSign "," >>= fun isThere =>
        if isThere then below.patternElements context >>= fun rest => Pure.pure (head :: rest)
        else sign "]" >>= fun _ => Pure.pure [head]) middle fun patterns =>
          Reads source cursor.offset (ofPatterns patterns) := by
    refine ends_listRest read.isOf (fun _ taken => ?_) fun _ closed => (read.close closed).ofPattern
    exact (sound.patternElements _ _ taken.isOf).mono fun _ _ rest =>
      read.append (taken.follow rest)
  unfold patternElementsHere
  refine ends_takeSign isOf (fun _ closed => .pure closed.weaken) ?_
  refine ends_takeSign isOf (fun _ taken => ?_) (ends_takeSign isOf (fun _ taken => ?_) ?_)
  · exact (sound.patternElements _ _ taken.isOf).mono fun _ _ rest => taken.weaken.follow rest
  · refine (sound.pattern _ _ taken.isOf).bind fun _ _ read => .value ?_
    exact more (taken.weaken.follow read)
  · exact (reads_patternHere sound context isOf).bind fun _ _ read => more read.weaken

theorem reads_patternEntry (sound : below.Sound source) (context : Context)
    (isOf : cursor.Of source) :
    Ends (below.patternEntry context) cursor fun patterns =>
      Reads source cursor.offset (ofPatterns patterns) := by
  unfold patternEntry
  refine ends_takeSign isOf (fun _ taken => ?_) ?_
  · refine (sound.pattern _ _ taken.isOf).bind fun _ _ read => .pure ?_
    exact Reads.ofPattern (taken.weaken.follow read)
  · refine (reads_key sound context isOf).bind fun found middle key => ?_
    refine ends_takeSign key.isOf (fun _ taken => ?_) ?_
    · refine (sound.pattern _ _ taken.isOf).bind fun _ _ read => .pure ?_
      have computed : Reads source cursor.offset (ofPatterns found.1.computedPart) middle :=
        key.weaken.congr fun depth => marks_ofPatterns_computedPart found.1 depth
      exact computed.patterns (taken.weaken.follow read).ofPattern
    · -- A key that stands alone is a name, so nothing of it is visited.
      refine ends_given fun word _ => ?_
      refine ends_takeSign key.isOf (fun _ taken => ?_) (.pure key.weaken.forget)
      refine (sound.assignment _ _ taken.isOf).bind fun _ _ value => .pure ?_
      exact (key.weaken.forget.close taken.weaken).follow value.reads |>.ofPattern

theorem reads_patternEntriesHere (sound : below.Sound source) (context : Context)
    (isOf : cursor.Of source) :
    Ends (below.patternEntriesHere context) cursor fun patterns =>
      Reads source cursor.offset (ofPatterns patterns) := by
  unfold patternEntriesHere
  refine ends_takeSign isOf (fun _ closed => .pure closed.weaken) ?_
  refine (reads_patternEntry sound context isOf).bind fun head _ read => ?_
  refine ends_listRest read.isOf (fun _ taken => ?_) fun _ closed => read.close closed
  exact (sound.patternEntries _ _ taken.isOf).mono fun _ _ rest => read.patterns (taken.follow rest)

theorem reads_paramsHere (sound : below.Sound source) (context : Context)
    (isOf : cursor.Of source) :
    Ends (below.paramsHere context) cursor fun patterns =>
      Reads source cursor.offset (ofPatterns patterns) := by
  unfold paramsHere
  refine ends_takeSign isOf (fun _ closed => .pure closed.weaken) ?_
  refine ends_takeSign isOf (fun _ taken => ?_) ?_
  · refine (sound.pattern _ _ taken.isOf).bind fun _ _ last => ?_
    refine (reads_sign ")" last.isOf).bind fun _ _ closed => .pure ?_
    exact Reads.ofPattern (taken.weaken.follow (last.close closed.weaken))
  · refine (reads_patternHere sound context isOf).bind fun head _ read => ?_
    refine ends_listRest read.isOf (fun _ taken => ?_) fun _ closed =>
      (read.weaken.close closed).ofPattern
    exact (sound.params _ _ taken.isOf).mono fun _ _ rest => read.weaken.append (taken.follow rest)

/-! ### Functions -/

theorem reads_functionRest (sound : below.Sound source) (isAsync isGenerator : Bool)
    (isOf : cursor.Of source) :
    Ends (below.functionRest isAsync isGenerator) cursor fun found =>
      Reads source (cursor.offset + 1) (ofPatterns found.1 ++ ofStatements found.2) := by
  unfold functionRest
  refine (reads_sign "(" isOf).bind fun _ _ opened => ?_
  refine (sound.params _ _ opened.isOf).bind fun params _ first => ?_
  refine (reads_sign "\x7b" first.isOf).bind fun _ _ brace => ?_
  refine (sound.statements _ _ brace.isOf).bind fun body _ second => .pure ?_
  exact (opened.follow first).append (brace.weaken.follow second)

/-! ### Object literals -/

theorem reads_plainEntry (sound : below.Sound source) (context : Context)
    (isOf : cursor.Of source) :
    Ends (below.plainEntry context cursor.here.position) cursor fun entry =>
      ReadsEntries source cursor.offset [entry] := by
  unfold plainEntry
  refine (reads_key sound context isOf).bind fun found middle key => ?_
  refine ends_atSign (.ite (fun _ => ?_) fun _ => ?_)
  · refine (reads_functionRest sound false false key.isOf).bind fun function _ read => .pure ?_
    exact .of_none ((key.append read.inFunction).site isOf) rfl
  refine ends_takeSign key.isOf (fun _ taken => ?_) ?_
  · refine (sound.assignment _ _ taken.isOf).bind fun value behind read => .pure (.ofEntry ?_ ?_)
    · have inside := key.append (taken.weaken.follow read.reads)
      exact (inside.contained (pairContainer found.1 value)).site isOf
    · intro patterns isPatterns
      simp only [entryPatterns?, Option.bind_eq_bind, Option.bind_some,
        Option.bind_eq_some_iff] at isPatterns
      obtain ⟨pattern, isPattern, ⟨⟩⟩ := isPatterns
      have computed : Reads source cursor.offset (ofPatterns found.1.computedPart) middle :=
        key.weaken.congr fun depth => marks_ofPatterns_computedPart found.1 depth
      have bound := taken.weaken.follow (read.pattern pattern isPattern).2
      rw [List.append_nil]
      exact computed.patterns bound.ofPattern
  · refine ends_given fun word _ => ?_
    refine ends_takeSign key.isOf (fun _ taken => ?_) (.pure (.ofEntry ?_ ?_))
    · refine (sound.assignment _ _ taken.isOf).bind fun value _ read => .pure (.ofEntry ?_ ?_)
      · exact ((key.forget.close taken.weaken).follow read.reads).site isOf
      · rintro _ ⟨⟩
        exact Reads.ofPattern ((key.weaken.forget.close taken.weaken).follow read.reads)
    · exact key.forget.site isOf
    · rintro _ ⟨⟩
      exact key.weaken.forget

variable {first : Cursor}

theorem reads_entryMethod (sound : below.Sound source) (context : Context)
    (isAsync isGenerator : Bool) (isOf : first.Of source)
    (taken : Reads source (first.offset + 1) .nil cursor) :
    Ends (below.entryMethod context first.here.position isAsync isGenerator) cursor fun entry =>
      ReadsEntries source first.offset [entry] := by
  unfold entryMethod
  refine (reads_key sound context taken.isOf).bind fun found _ key => ?_
  refine (reads_functionRest sound _ _ key.isOf).bind fun function _ read => .pure ?_
  exact .of_none (((taken.follow key.weaken).append read.inFunction).site isOf) rfl

theorem reads_entry (sound : below.Sound source) (context : Context) (isOf : cursor.Of source) :
    Ends (below.entry context) cursor fun entry => ReadsEntries source cursor.offset [entry] := by
  unfold entry
  refine .get ?_
  simp only
  split
  · rename_i isSign
    refine (reads_next isOf (by simp [isSign])).bind fun _ _ taken => ?_
    refine (sound.assignment _ _ taken.isOf).bind fun expr _ read => .pure (.ofEntry ?_ ?_)
    · exact taken.weaken.follow read.reads
    · intro patterns isPatterns
      simp only [entryPatterns?, Option.bind_eq_bind, Option.bind_some,
        Option.bind_eq_some_iff] at isPatterns
      obtain ⟨pattern, isPattern, ⟨⟩⟩ := isPatterns
      exact Reads.ofPattern (taken.weaken.follow (read.pattern pattern isPattern).2)
  · rename_i isSign
    refine (reads_next isOf (by simp [isSign])).bind fun _ _ taken => ?_
    exact reads_entryMethod sound context _ _ isOf taken
  · rename_i isWord
    refine ends_peek fun following => .ite (fun _ => ?_) fun _ => ?_
    · exact reads_plainEntry sound context isOf
    refine (reads_next isOf (by simp [isWord])).bind fun _ _ taken => ?_
    refine (reads_takeSign "*" taken.isOf).bind fun _ _ star => ?_
    exact reads_entryMethod sound context _ _ isOf (taken.close star)
  · rename_i isWord
    refine .ite (fun _ => ?_) fun _ => reads_plainEntry sound context isOf
    refine ends_peek fun following => .ite (fun _ => ?_) fun _ => ?_
    · exact reads_plainEntry sound context isOf
    refine (reads_next isOf (by simp [isWord])).bind fun _ _ taken => ?_
    refine (reads_key sound context taken.isOf).bind fun found _ key => ?_
    refine (reads_functionRest sound _ _ key.isOf).bind fun function _ read => .pure ?_
    have inside : Reads source (cursor.offset + 2) _ _ :=
      (key.mono (Nat.succ_le_succ taken.spans.ordered)).append read.weaken
    refine .of_none (Reads.site isOf (Reads.inFunction ?_)) rfl
    exact inside.congr fun depth => by simp only [marks_append, List.append_assoc]
  · exact reads_plainEntry sound context isOf

theorem reads_entriesHere (sound : below.Sound source) (context : Context)
    (isOf : cursor.Of source) :
    Ends (below.entriesHere context) cursor (ReadsEntries source cursor.offset) := by
  unfold entriesHere
  refine ends_takeSign isOf (fun _ closed => .pure (.nil closed.weaken)) ?_
  refine (reads_entry sound context isOf).bind fun head _ read => ?_
  refine ends_listRest read.reads.isOf (fun _ taken => ?_) fun _ closed => read.close closed
  refine (sound.entries _ _ taken.isOf).mono fun _ _ rest => (read.close taken).cons rest

/-! ### Class bodies -/

theorem reads_modifiers (isStatic : Bool) (isOf : cursor.Of source) :
    Ends (modifiers isStatic) cursor fun _ => Reads source cursor.offset .nil := by
  unfold modifiers
  refine .get ?_
  split
  · rename_i isSign
    exact (reads_next isOf (by simp [isSign])).bind fun _ _ taken => .pure taken.weaken
  · rename_i isWord
    refine ends_peek fun following => .ite (fun _ => .pure (.stay isOf)) fun _ => ?_
    refine (reads_next isOf (by simp [isWord])).bind fun _ _ taken => ?_
    refine (reads_takeSign "*" taken.isOf).bind fun _ _ star => .pure ?_
    exact taken.weaken.close star
  · rename_i isWord
    refine .ite (fun _ => ?_) fun _ => .pure (.stay isOf)
    refine ends_peek fun following => .ite (fun _ => .pure (.stay isOf)) fun _ => ?_
    exact (reads_next isOf (by simp [isWord])).bind fun _ _ taken => .pure taken.weaken
  · exact .pure (.stay isOf)

theorem reads_memberKey (sound : below.Sound source) (context : Context)
    (isOf : cursor.Of source) :
    Ends (below.memberKey context) cursor fun key =>
      Reads source (cursor.offset + 1) (ofKey key) := by
  unfold memberKey
  refine .get (.ite (fun isPrivate => ?_) fun _ => ?_)
  · have more : cursor.token ≠ .done := by
      rw [beq_iff_eq.mp isPrivate]
      exact nofun
    exact (reads_next isOf more).bind fun _ _ taken => .pure taken
  · exact (reads_key sound context isOf).bind fun _ _ key => .pure key

theorem reads_memberRest (sound : below.Sound source) (context : Context) (found : Modifiers)
    (isOf : first.Of source) (taken : Reads source first.offset .nil cursor) :
    Ends (below.memberRest context first.here.position found) cursor fun member =>
      Reads source first.offset (ofMember member) := by
  unfold memberRest
  refine .get ?_
  refine (reads_memberKey sound context taken.isOf).bind fun name middle reads => ?_
  have key : Reads source (first.offset + 1) (ofKey name) middle :=
    reads.mono (Nat.succ_le_succ taken.spans.ordered)
  refine ends_atSign (.ite (fun _ => ?_) fun _ => .ite (fun _ => .failure) fun _ => ?_)
  · refine (reads_functionRest sound _ _ key.isOf).bind fun function _ read => ?_
    refine .ite (fun _ => .pure ?_) fun _ => .ite (fun _ => .pure ?_) fun _ => .pure ?_
    · exact Reads.site isOf (key.forget.follow read.inFunction).ofPart
    · exact (key.append read.inFunction).site isOf
    · exact (key.append read.inFunction).site isOf
  · have field {value : Option Expr} {behind : Cursor}
        (read : Reads source middle.offset (ofExpr? value) behind) :
        Ends (semicolon >>= fun _ =>
          if cursor.token == .privateName then
            Pure.pure (Member.other first.here.position (value.toList.map .expr))
          else Pure.pure (Member.field first.here.position name found.isStatic value))
        behind fun member => Reads source first.offset (ofMember member) := by
      refine (reads_semicolon read.isOf).bind fun _ _ closed => ?_
      refine .ite (fun _ => .pure ?_) fun _ => .pure ?_
      · refine Reads.site isOf ((key.forget.follow (read.close closed)).congr fun depth => ?_)
        cases value <;> simp [ofParts, ofPart, ofExpr?]
      · exact (key.append (read.close closed)).site isOf
    refine ends_takeSign key.isOf (fun _ equals => ?_) (.value (field (.stay key.isOf)))
    refine (sound.assignment _ _ equals.isOf).bind fun value _ read => .value ?_
    exact field (equals.weaken.follow read.reads)

theorem reads_member (sound : below.Sound source) (context : Context) (isOf : cursor.Of source) :
    Ends (below.member context) cursor fun member =>
      Reads source cursor.offset (ofMember member) := by
  unfold member
  refine .get ?_
  simp only
  split
  · rename_i isSign
    exact (reads_next isOf (by simp [isSign])).bind fun _ _ taken => .pure (taken.site isOf)
  · rename_i isWord
    refine ends_peek fun following => .ite (fun _ => ?_) fun _ => ?_
    · exact reads_memberRest sound context _ isOf (.stay isOf)
    refine (reads_next isOf (by simp [isWord])).bind fun _ _ taken => ?_
    refine ends_takeSign taken.isOf (fun _ opened => ?_) ?_
    · refine (sound.statements _ _ opened.isOf).bind fun statements _ body => .pure ?_
      refine Reads.site isOf ((taken.close opened.weaken).follow body |>.congr fun depth => ?_)
      rw [ofParts_statements]
    · refine (reads_modifiers true taken.isOf).bind fun found _ passed => ?_
      exact reads_memberRest sound context found isOf (taken.weaken.close passed)
  · refine (reads_modifiers false isOf).bind fun found _ passed => ?_
    exact reads_memberRest sound context found isOf passed

theorem reads_membersHere (sound : below.Sound source) (context : Context)
    (isOf : cursor.Of source) :
    Ends (below.membersHere context) cursor fun members =>
      Reads source cursor.offset (ofMembers members) := by
  unfold membersHere
  refine ends_takeSign isOf (fun _ closed => .pure closed.weaken) ?_
  refine (reads_member sound context isOf).bind fun head _ read => ?_
  exact (sound.members _ _ read.isOf).bind fun rest _ later => .pure (read.append later)

end Grammar

end DocEntities.Script
