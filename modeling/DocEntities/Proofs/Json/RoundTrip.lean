/-
This file shows that an entity survives being written and read. Every field is left out by the
same rule by which a missing one is filled in: no text for nothing, no flag for one that does not
hold, no list of parameters or returned values for an empty one. A list of types may be empty and
is written then, since a missing one says something else. Remarks stand behind the fields and are
told from them by their keys, so none of them may have the name of a field.

An entity that has been read has no such remark, and its line is one that can be read. So whatever
text it was read from, the text that it is written into is read as the same entity.
-/

import DocEntities.Proofs.Json.Reading

namespace DocEntities

open Json Json.Reader

variable {layout : Layout}

/-! ### Parts of an entity -/

theorem takesBack_param (spaced : layout.Spaced) (param : Param) :
    TakesBack layout Reader.param param.toJson param := by
  have text := takesBack_text layout
  have enters : Enters layout paramMember _ _ {} _ :=
    Enters.option spaced "types" (fun _ _ => rfl) (takesBack_textList spaced) param.types rfl
      |>.append (.option spaced "name" (fun _ _ => rfl) text param.name rfl)
      |>.append (.option spaced "description" (fun _ _ => rfl) text param.description rfl)
      |>.append (.flag spaced "optional" (fun _ _ => rfl) param.optional rfl)
  intro depth blanks rest blank _
  unfold Reader.param Param.toJson
  rw [bind_of_ok (peek_object blank layout depth _ rest)]
  show (object paramMember ([], {}) >>= fun found => pure found.2) _ = _
  rw [bind_of_ok (enters.object_write spaced (by decide) depth rest)]
  rfl

theorem takesBack_returned (spaced : layout.Spaced) (returned : Returned) :
    TakesBack layout Reader.returned returned.toJson returned := by
  have text := takesBack_text layout
  have enters : Enters layout returnedMember _ _ {} _ :=
    Enters.option spaced "types" (fun _ _ => rfl) (takesBack_textList spaced) returned.types rfl
      |>.append (.option spaced "description" (fun _ _ => rfl) text returned.description rfl)
  intro depth blanks rest blank _
  unfold Reader.returned Returned.toJson
  rw [bind_of_ok (peek_object blank layout depth _ rest)]
  show (object returnedMember ([], {}) >>= fun found => pure found.2) _ = _
  rw [bind_of_ok (enters.object_write spaced (by decide) depth rest)]
  rfl

theorem takesBack_origin (spaced : layout.Spaced) {origin : Origin}
    (bounded : origin.line < Nat.pow 2 64) :
    TakesBack layout Reader.origin origin.toJson origin := by
  have text := takesBack_text layout
  have enters : Enters layout originMember _ _ {} _ :=
    Enters.field spaced "line" (fun _ _ => rfl) (fun depth => reads_natural layout depth bounded)
      |>.append (.option spaced "url" (fun _ _ => rfl) text origin.url rfl)
      |>.append (.option spaced "name" (fun _ _ => rfl) text origin.name rfl)
  intro depth blanks rest blank _
  unfold Reader.origin Origin.toJson
  rw [bind_of_ok (peek_object blank layout depth _ rest)]
  refine (bind_of_ok (enters.object_write spaced (by decide) depth rest)).trans ?_
  refine congrFun (if_pos ?_) rest
  simp

/-- The names of the fields of an entity, in the order in which they are written. -/
def Entity.fieldNames : List String :=
  ["id", "kind", "name", "container", "isInstanceMember", "inheritsFrom", "params", "returns",
    "types", "description", "summary", "deprecated", "inheritdoc", "source"]

theorem Kind.ofName?_name (kind : Kind) : ofName? kind.name = some kind := by
  cases kind <;> decide

/-- The fields of an entity as they are written, in front of the remarks. -/
def Entity.fields (entity : Entity) : List (String × Json) :=
  [("id", .text entity.id)] ++ whenSome "kind" (entity.kind.map fun kind => .text kind.name) ++
    [("name", .text entity.name)] ++ whenSome "container" (entity.container.map .text) ++
    whenTrue "isInstanceMember" entity.isInstanceMember ++
    whenSome "inheritsFrom" (entity.inheritsFrom.map .text) ++
    whenSome "params" (listed (entity.params.map Param.toJson)) ++
    whenSome "returns" (listed (entity.returns.map Returned.toJson)) ++
    whenSome "types" (entity.types.map texts) ++
    whenSome "description" (entity.description.map .text) ++
    whenSome "summary" (entity.summary.map .text) ++ whenTrue "deprecated" entity.deprecated ++
    whenTrue "inheritdoc" entity.inheritdoc ++ [("source", entity.source.toJson)]

theorem Entity.members_eq (entity : Entity) :
    entity.members =
      entity.fields ++ entity.remarks.entries.map fun entry => (entry.1, entry.2.toJson) := by
  simp [members, fields]

/-- The fields of an entity are read back into an entity without remarks. -/
theorem Entity.enters_fields (spaced : layout.Spaced) (entity : Entity)
    (bounded : entity.source.line < Nat.pow 2 64) :
    Enters layout entityMember fieldNames entity.fields {}
      { entity := { entity with remarks := .empty } } := by
  have text := takesBack_text layout
  have kind (kind : Kind) : TakesBack layout (choice Kind.ofName?) (.text kind.name) kind :=
    fun _ => reads_choice kind.ofName?_name
  have enters : Enters layout entityMember _ _ {} _ :=
    Enters.field spaced "id" (fun _ _ => rfl) (text entity.id)
      |>.append (.option spaced "kind" (fun _ _ => rfl) kind entity.kind rfl)
      |>.append (.field spaced "name" (fun _ _ => rfl) (text entity.name))
      |>.append (.option spaced "container" (fun _ _ => rfl) text entity.container rfl)
      |>.append (.flag spaced "isInstanceMember" (fun _ _ => rfl) entity.isInstanceMember rfl)
      |>.append (.option spaced "inheritsFrom" (fun _ _ => rfl) text entity.inheritsFrom rfl)
      |>.append (.list spaced "params" (fun _ _ => rfl) (takesBack_param spaced) entity.params rfl)
      |>.append
        (.list spaced "returns" (fun _ _ => rfl) (takesBack_returned spaced) entity.returns rfl)
      |>.append
        (.option spaced "types" (fun _ _ => rfl) (takesBack_textList spaced) entity.types rfl)
      |>.append (.option spaced "description" (fun _ _ => rfl) text entity.description rfl)
      |>.append (.option spaced "summary" (fun _ _ => rfl) text entity.summary rfl)
      |>.append (.flag spaced "deprecated" (fun _ _ => rfl) entity.deprecated rfl)
      |>.append (.flag spaced "inheritdoc" (fun _ _ => rfl) entity.inheritdoc rfl)
      |>.append (.field spaced "source" (fun _ _ => rfl) (takesBack_origin spaced bounded))
  exact enters

/-! ### Remarks -/

theorem putSorted_of_forall_lt {key : String} (value : Remark) {entries : List (String × Remark)}
    (below : ∀ entry ∈ entries, entry.1 < key) :
    putSorted key value entries = entries ++ [(key, value)] := by
  induction entries with
  | nil => rfl
  | cons first rest inductionHypothesis =>
    have before := below first List.mem_cons_self
    have later := inductionHypothesis fun entry member =>
      below entry (List.mem_cons_of_mem _ member)
    rw [putSorted, if_neg (fun after => Std.lt_irrefl (Std.lt_trans before after)),
      if_neg (fun same => Std.lt_irrefl (same ▸ before)), later, List.cons_append]

namespace Remarks

theorem entries_foldl_insert (remarks : Remarks) {later : List (String × Remark)}
    (ascending : (remarks.entries ++ later).Pairwise fun first second => first.1 < second.1) :
    (later.foldl (fun merged entry => merged.insert entry.1 entry.2) remarks).entries =
      remarks.entries ++ later := by
  induction later generalizing remarks with
  | nil => rw [List.append_nil]; rfl
  | cons entry later inductionHypothesis =>
    have below : ∀ other ∈ remarks.entries, other.1 < entry.1 := fun other member =>
      (List.pairwise_append.mp ascending).2.2 other member entry List.mem_cons_self
    have inserted : (remarks.insert entry.1 entry.2).entries = remarks.entries ++ [entry] :=
      putSorted_of_forall_lt entry.2 below
    have moved : (remarks.insert entry.1 entry.2).entries ++ later =
        remarks.entries ++ entry :: later := by
      rw [inserted, List.append_assoc, List.singleton_append]
    rw [List.foldl_cons, inductionHypothesis _ (moved ▸ ascending), moved]

/-- Remarks are in the order in which they are written. -/
theorem ofList_entries (remarks : Remarks) : ofList remarks.entries = remarks := by
  have same : (ofList remarks.entries).entries = remarks.entries :=
    entries_foldl_insert empty remarks.ascending
  generalize ofList remarks.entries = read at same
  cases read
  cases remarks
  cases same
  rfl

end Remarks

/-- Remarks that were kept are told from one another as they were. -/
theorem remarks?_map_ofRemark (remarks : Remarks) :
    remarks? (remarks.entries.map fun entry => (entry.1, Kept.ofRemark entry.2)) =
      some remarks := by
  have each (entries : List (String × Remark)) :
      (entries.map fun entry => (entry.1, Kept.ofRemark entry.2)).mapM
        (fun entry => entry.2.toRemark?.map fun remark => (entry.1, remark)) = some entries := by
    induction entries with
    | nil => rfl
    | cons entry entries inductionHypothesis =>
      rw [List.map_cons, List.mapM_cons, inductionHypothesis]
      simp only [Kept.toRemark?_ofRemark]
      rfl
  rw [remarks?, each, Option.map_some, Remarks.ofList_entries]

/-- A member that is no field is kept. -/
theorem entityMember_of_not_mem {key : String} (foreign : key ∉ Entity.fieldNames)
    (seen : List String) (draft : Draft) :
    entityMember key (seen, draft) = (do
      colon
      let value ← keep keptDepth
      return (seen, { draft with kept := draft.kept ++ [(key, value)] })) := by
  simp only [Entity.fieldNames, List.mem_cons, List.not_mem_nil, or_false, not_or] at foreign
  simp [entityMember, foreign]

theorem gathers_remarks (spaced : layout.Spaced) {entries : List (String × Remark)}
    (foreign : ∀ entry ∈ entries, entry.1 ∉ Entity.fieldNames) (seen : List String)
    (draft : Draft) :
    Gathers layout entityMember (seen, draft)
      (entries.map fun entry => (entry.1, entry.2.toJson))
      (seen, { draft with
        kept := draft.kept ++ entries.map fun entry => (entry.1, Kept.ofRemark entry.2) }) := by
  induction entries generalizing draft with
  | nil =>
    rw [List.map_nil, List.map_nil, List.append_nil]
    exact .nil _
  | cons entry entries inductionHypothesis =>
    have later := inductionHypothesis (fun other member =>
      foreign other (List.mem_cons_of_mem _ member))
      { draft with kept := draft.kept ++ [(entry.1, Kept.ofRemark entry.2)] }
    rw [List.append_assoc, List.singleton_append] at later
    refine .cons (fun depth rest delimited => ?_) later
    rw [entityMember_of_not_mem (foreign entry List.mem_cons_self)]
    exact colon_bind spaced (reads_keep keptDepth layout depth entry.2) delimited _

/-! ### Entities -/

/-- An entity that lasts: its remarks can be told from its fields, and its line can be read. -/
structure Entity.Lasting (entity : Entity) : Prop where
  foreign : ∀ entry ∈ entity.remarks.entries, entry.1 ∉ fieldNames
  bounded : entity.source.line < Nat.pow 2 64

theorem takesBack_entity (spaced : layout.Spaced) {entity : Entity} (lasting : entity.Lasting) :
    TakesBack layout Reader.entity entity.toJson entity := by
  have fields := (entity.enters_fields spaced lasting.bounded).gathers [] (by decide)
    fun _ _ => List.not_mem_nil
  -- The fields fill the draft, and the remarks behind them are kept beside it.
  have gathers := fields.append (gathers_remarks spaced lasting.foreign _ _)
  rw [← entity.members_eq] at gathers
  have needed : ∀ name ∈ ["id", "name", "source"],
      ((entity.fields.map Prod.fst).reverse ++ []).contains name = true := by
    simp [Entity.fields]
  intro depth blanks rest blank _
  unfold Reader.entity Entity.toJson
  rw [bind_of_ok (peek_object blank layout depth _ rest)]
  refine (bind_of_ok (object_write spaced gathers depth rest)).trans ?_
  simp only [needed "id" (by simp), needed "name" (by simp), needed "source" (by simp),
    Bool.and_self, if_true, List.nil_append, remarks?_map_ofRemark]
  rfl

theorem Entity.Lasting.read_back {entity : Entity} (lasting : entity.Lasting)
    (spaced : layout.Spaced) : Entity.ofText (entity.toJson.render layout) = .ok entity := by
  have read := takesBack_entity spaced lasting 0 [] [] .nil nofun
  rw [List.nil_append, List.append_nil] at read
  rw [Entity.ofText, Reader.run, Json.render, String.toList_ofList, read]
  rfl

/-! ### What a reader can give -/

namespace Json.Reader

variable {α β : Type} {holds : α → Prop}

/-- Whatever a reader takes, it is such that `holds`. -/
def Yields (reader : Reader α) (holds : α → Prop) : Prop :=
  ∀ text value rest, reader text = .ok (value, rest) → holds value

theorem Yields.of_forall (reader : Reader α) (each : ∀ value, holds value) : reader.Yields holds :=
  fun _ value _ _ => each value

theorem Yields.fail (fault : Fault) : Yields (Reader.fail fault : Reader α) holds :=
  fun _ _ _ read => nomatch read

theorem Yields.pure {value : α} (fits : holds value) :
    Yields (Pure.pure value : Reader α) holds := by
  intro text found rest read
  cases read
  exact fits

theorem Yields.bind {reader : Reader β} {next : β → Reader α} {first : β → Prop}
    (yields : reader.Yields first) (each : ∀ value, first value → (next value).Yields holds) :
    (reader >>= next).Yields holds := by
  intro text result last read
  obtain ⟨value, rest, readFirst, readNext⟩ := exists_of_bind read
  exact each value (yields text value rest readFirst) rest result last readNext

/-- What comes first does not matter. -/
theorem Yields.after {reader : Reader β} {next : β → Reader α}
    (each : ∀ value, (next value).Yields holds) : (reader >>= next).Yields holds :=
  .bind (.of_forall reader fun _ => trivial) fun value (_ : True) => each value

/-- What holds at the start and is kept by each member holds of an object. -/
theorem Yields.members {σ : Type} {step : String → σ → Reader σ} {holds : σ → Prop}
    (each : ∀ key state, holds state → (step key state).Yields holds) (bound : Nat) (first : Bool)
    {state : σ} (start : holds state) : (members step bound first state).Yields holds := by
  induction bound generalizing first state with
  | zero => exact .fail _
  | succ bound inductionHypothesis =>
    refine .after fun key => ?_
    cases key with
    | none => exact .after fun _ => .pure start
    | some key =>
      exact .bind (each key state start) fun next kept => inductionHypothesis false kept

theorem Yields.object {σ : Type} {step : String → σ → Reader σ} {holds : σ → Prop}
    (each : ∀ key state, holds state → (step key state).Yields holds) {state : σ}
    (start : holds state) : (object step state).Yields holds :=
  .after fun _ => .after fun text => .members each (text.length + 1) true start

theorem Yields.once {σ : Type} {seen : List String} {key : String} {value : Reader α}
    {put : α → σ} {kept : List String × σ → Prop} (yields : value.Yields holds)
    (each : ∀ found, holds found → kept (key :: seen, put found)) :
    (once seen key value put).Yields kept := by
  unfold Reader.once
  split
  · exact .fail _
  · exact .after fun _ => .bind yields fun found fits => .pure (each found fits)

theorem Yields.ite {condition : Prop} [Decidable condition] {reader other : Reader α}
    (yields : condition → reader.Yields holds) (otherwise : ¬condition → other.Yields holds) :
    (if condition then reader else other).Yields holds := by
  split
  · exact yields ‹_›
  · exact otherwise ‹_›

/-- A value of the wrong type is never taken. -/
theorem yields_wrongType : (wrongType : Reader α).Yields holds := by
  have failing {γ : Type} (reader : Reader γ) :
      Yields (reader >>= fun _ => (Reader.fail .data : Reader α)) holds :=
    .after fun _ => .fail _
  refine .after fun next => ?_
  cases next with
  | none => exact .fail _
  | some c =>
    refine .ite (fun _ => .after fun _ => failing _) fun _ =>
      .ite (fun _ => .after fun _ => failing _) fun _ =>
      .ite (fun _ => .after fun _ => failing _) fun _ =>
      .ite (fun _ => .after fun _ => failing _) fun _ => ?_
    exact .ite (fun _ => failing _) fun _ => .ite (fun _ => .after fun _ => failing _) fun _ =>
      .ite (fun _ => .fail _) fun _ => .fail _

/-- A number that a reader takes as natural is below the bound. -/
theorem yields_numberRest (negative : Bool) :
    (numberRest negative).Yields fun number =>
      ∀ value, number = .natural value → value < Nat.pow 2 64 := by
  refine .after fun whole => .after fun fraction => .after fun exponent => ?_
  refine .ite (fun _ => .fail _) fun _ => .ite (fun small => .pure ?_) fun _ => .pure nofun
  intro value same
  cases same
  rw [Bool.and_eq_true, decide_eq_true_eq] at small
  exact small.2

theorem yields_natural : natural.Yields (· < Nat.pow 2 64) := by
  refine .after fun next => ?_
  cases next with
  | none => exact yields_wrongType
  | some c =>
    refine .ite (fun _ => .bind (yields_numberRest false) fun number bounded => ?_)
      fun _ => yields_wrongType
    cases number with
    | natural value => exact .pure (bounded value rfl)
    | other => exact .fail _

theorem yields_originMember (key : String) (state : List String × Origin)
    (bounded : state.2.line < Nat.pow 2 64) :
    (originMember key state).Yields fun next => next.2.line < Nat.pow 2 64 := by
  have other (value : Reader (Option String)) {put : Option String → Origin}
      (same : ∀ found, (put found).line = state.2.line) :
      (once state.1 key value put).Yields fun next => next.2.line < Nat.pow 2 64 :=
    .once (.of_forall value fun _ => trivial) fun found (_ : True) => (same found).symm ▸ bounded
  refine .ite (fun _ => .once yields_natural fun line small => small) fun _ => ?_
  refine .ite (fun _ => other _ fun _ => rfl) fun _ => ?_
  refine .ite (fun _ => other _ fun _ => rfl) fun _ => ?_
  exact .after fun _ => .after fun _ => .pure bounded

theorem yields_nextField {value : Reader α} (yields : value.Yields holds) (first : Bool) :
    (nextField first value).Yields fun found => ∀ taken, found = some taken → holds taken := by
  refine .after fun more => .ite (fun _ => .bind yields fun found fits => .pure ?_)
    fun _ => .pure nofun
  rintro _ ⟨⟩
  exact fits

theorem yields_originFields : originFields.Yields fun origin => origin.line < Nat.pow 2 64 := by
  refine .after fun _ => .bind (yields_nextField yields_natural true) fun line bounded => ?_
  cases line with
  | none => exact .fail _
  | some line =>
    exact .after fun _ => .after fun _ => .after fun _ => .pure (bounded line rfl)

theorem yields_origin : origin.Yields fun origin => origin.line < Nat.pow 2 64 := by
  have start : (([], {}) : List String × Origin).2.line < Nat.pow 2 64 := by decide
  refine .after fun next => ?_
  split
  · refine .bind (.object yields_originMember start) fun state bounded => ?_
    exact .ite (fun _ => .pure bounded) fun _ => .fail _
  · exact yields_originFields
  · exact yields_wrongType

/-- A draft that an entity can be read back from once it is written. -/
structure Draft.Lasting (draft : Draft) : Prop where
  bounded : draft.entity.source.line < Nat.pow 2 64
  foreign : ∀ entry ∈ draft.kept, entry.1 ∉ Entity.fieldNames

theorem yields_entityMember (key : String) (state : List String × Draft)
    (lasting : state.2.Lasting) :
    (entityMember key state).Yields fun next => next.2.Lasting := by
  obtain ⟨seen, draft⟩ := state
  by_cases isField : key ∈ Entity.fieldNames
  · rcases eq_or_ne key "source" with rfl | notSource
    · exact .once yields_origin fun found small => ⟨small, lasting.foreign⟩
    -- Every other field leaves the origin as it is, and none adds to what is kept.
    · have other {γ : Type} (name : String) (value : Reader γ) (put : γ → Entity)
          (same : ∀ found, (put found).source = draft.entity.source) :
          (once seen name value fun found => { draft with entity := put found }).Yields
            fun next => next.2.Lasting :=
        .once (.of_forall value fun _ => trivial) fun found (_ : True) =>
          ⟨(same found).symm ▸ lasting.bounded, lasting.foreign⟩
      simp only [Entity.fieldNames, List.mem_cons, List.not_mem_nil, or_false, notSource]
        at isField
      rcases isField with rfl | rfl | rfl | rfl | rfl | rfl | rfl | rfl | rfl | rfl | rfl | rfl |
        rfl
      all_goals exact other _ _ _ fun _ => rfl
  · rw [entityMember_of_not_mem isField]
    refine .after fun _ => .after fun value => .pure ⟨lasting.bounded, fun entry member => ?_⟩
    rcases List.mem_append.mp member with before | last
    · exact lasting.foreign entry before
    · rw [List.mem_singleton.mp last]
      exact isField

theorem key_of_mem_foldl_insert {entries : List (String × Remark)} {remarks : Remarks}
    {entry : String × Remark}
    (member : entry ∈ (entries.foldl (fun merged entry => merged.insert entry.1 entry.2)
      remarks).entries) :
    entry ∈ remarks.entries ∨ ∃ other ∈ entries, other.1 = entry.1 := by
  induction entries generalizing remarks with
  | nil => exact Or.inl member
  | cons first rest inductionHypothesis =>
    rcases inductionHypothesis member with inserted | ⟨other, inRest, same⟩
    · rcases mem_putSorted inserted with same | before
      · exact Or.inr ⟨first, List.mem_cons_self, same.symm⟩
      · exact Or.inl before
    · exact Or.inr ⟨other, List.mem_cons_of_mem _ inRest, same⟩

/-- Members that are no field are kept under their keys. -/
theorem keys_of_mapM {kept : List (String × Kept)} {entries : List (String × Remark)}
    (read : kept.mapM (fun entry => entry.2.toRemark?.map fun remark => (entry.1, remark)) =
      some entries) : entries.map Prod.fst = kept.map Prod.fst := by
  induction kept generalizing entries with
  | nil =>
    cases read
    rfl
  | cons first kept inductionHypothesis =>
    rw [List.mapM_cons] at read
    obtain ⟨entry, isRemark, readRest⟩ := Option.bind_eq_some_iff.mp read
    obtain ⟨more, isMore, same⟩ := Option.bind_eq_some_iff.mp readRest
    obtain ⟨remark, -, rfl⟩ := Option.map_eq_some_iff.mp isRemark
    cases same
    rw [List.map_cons, List.map_cons, inductionHypothesis isMore]

theorem key_of_mem_remarks? {kept : List (String × Kept)} {remarks : Remarks}
    (read : remarks? kept = some remarks) {entry : String × Remark}
    (member : entry ∈ remarks.entries) : ∃ other ∈ kept, other.1 = entry.1 := by
  obtain ⟨entries, isMapped, rfl⟩ := Option.map_eq_some_iff.mp read
  rcases key_of_mem_foldl_insert member with none | ⟨other, inEntries, same⟩
  · cases none
  · have key : other.1 ∈ kept.map Prod.fst := by
      rw [← keys_of_mapM isMapped]
      exact List.mem_map_of_mem inEntries
    obtain ⟨found, isKept, sameKey⟩ := List.mem_map.mp key
    exact ⟨found, isKept, sameKey.trans same⟩

/-- Whatever entity is read lasts. -/
theorem yields_entity : entity.Yields Entity.Lasting := by
  have start : (([], {}) : List String × Draft).2.Lasting :=
    ⟨by decide, List.forall_mem_nil _⟩
  refine .after fun next => ?_
  split
  · refine .bind (.object yields_entityMember start) fun state lasting => ?_
    refine .ite (fun _ => ?_) fun _ => .fail _
    split
    · rename_i remarks read
      refine .pure ⟨fun entry member => ?_, lasting.bounded⟩
      obtain ⟨other, isKept, same⟩ := key_of_mem_remarks? read member
      exact same ▸ lasting.foreign other isKept
    · exact .fail _
  · exact yields_wrongType

end Json.Reader

theorem Entity.lasting_of_ofText {text : String} {entity : Entity}
    (read : Entity.ofText text = .ok entity) : entity.Lasting := by
  unfold Entity.ofText Reader.run at read
  split at read
  · cases read
  · rename_i found rest taken
    split at read
    · cases read
      exact yields_entity _ _ _ taken
    · cases read

/-- An entity whose remarks can be told from its fields is read back as it was written, if its
line is a number of 64 bits. What has been read from any text is such an entity: written again, it
is read as the same, and from then on the text stays as it is. -/
theorem ofText_render {layout : Layout} (spaced : layout.Spaced) :
    (∀ entity : Entity, (∀ entry ∈ entity.remarks.entries, entry.1 ∉ Entity.fieldNames) →
      entity.source.line < Nat.pow 2 64 →
      Entity.ofText (entity.toJson.render layout) = .ok entity) ∧
    ∀ text entity, Entity.ofText text = .ok entity →
      Entity.ofText (entity.toJson.render layout) = .ok entity ∧
        (Entity.ofText (entity.toJson.render layout)).map (fun read => read.toJson.render layout) =
          .ok (entity.toJson.render layout) := by
  constructor
  · intro entity foreign bounded
    have lasting : entity.Lasting := ⟨foreign, bounded⟩
    exact lasting.read_back spaced
  · intro text entity read
    have again := (Entity.lasting_of_ofText read).read_back spaced
    refine ⟨again, ?_⟩
    rw [again]
    rfl

/-- An entity with an empty list of types, characters that have to be escaped, and remarks. -/
def notedEntity : Entity :=
  { id := "a#event:b"
    kind := some .event
    name := "b"
    container := some "a"
    isInstanceMember := true
    params := [{ name := some "x", optional := true }]
    types := some []
    description := some "\"1\"\n\u0001"
    source := { line := 7 }
    remarks := .ofList [("todo", .flag true), ("see", .text "é\\")] }

theorem ofText_render_notedEntity :
    (∀ entry ∈ notedEntity.remarks.entries, entry.1 ∉ Entity.fieldNames) ∧
      notedEntity.source.line < Nat.pow 2 64 ∧
      Entity.ofText (notedEntity.toJson.render .pretty) = .ok notedEntity ∧
      Entity.ofText (notedEntity.toJson.render .compact) = .ok notedEntity :=
  have foreign : ∀ entry ∈ notedEntity.remarks.entries, entry.1 ∉ Entity.fieldNames := by decide
  have bounded : notedEntity.source.line < Nat.pow 2 64 := by decide
  have pretty := (ofText_render Layout.spaced_pretty).1 notedEntity foreign bounded
  ⟨foreign, bounded, pretty, ((ofText_render Layout.spaced_compact).2 _ notedEntity pretty).1⟩

end DocEntities
