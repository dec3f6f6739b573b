/-
This file says when a batch of files fails, and what a failure leaves behind. A file is rejected if
it cannot be read as text or if its text is no script, and that does not depend on the other files.
The files are read by workers that finish in any order, but each delivers to the place of its own
file, and the places are gone through in the order of the files. So the first rejected file decides
the failure of the batch, and without one every file contributes its table.

An extraction comes to write something only behind its last point of failure. If the configuration
or a file fails it, the disk and the output are as they were.
-/

import DocEntities.Command.Run
import Mathlib.Data.List.Forall2
import Mathlib.Data.List.Perm.Basic

namespace DocEntities

namespace Workspace

/-! ### Files that are rejected -/

/-- Why a file cannot be documented: it cannot be read as a text, or its text is no script. -/
inductive Rejects (workspace : Workspace) (path : String) : Failure → Prop where
  | unreadable {fault : FileFault} (read : workspace.readText path = .error fault) :
      Rejects workspace path (.fileUnreadable path fault)
  | unparsed {code : String} (read : workspace.readText path = .ok code)
      (invalid : Script.parse? code (allowsElements path) = none) :
      Rejects workspace path (.sourceInvalid path)

/-- The failure of the first file in a list that is rejected. -/
inductive FirstRejected (workspace : Workspace) : List String → Failure → Prop where
  | here {path : String} {rest : List String} {failure : Failure}
      (rejected : workspace.Rejects path failure) : FirstRejected workspace (path :: rest) failure
  | later {path : String} {rest : List String} {failure : Failure}
      (sound : ∀ otherFailure, ¬ workspace.Rejects path otherFailure)
      (first : FirstRejected workspace rest failure) :
      FirstRejected workspace (path :: rest) failure

variable {workspace : Workspace} {options : Options} {baseUrl : Option String} {path : String}
  {paths : List String} {failure : Failure}

theorem contribution_eq_error_iff :
    workspace.contribution options baseUrl path = .error failure ↔
      workspace.Rejects path failure := by
  unfold contribution
  constructor
  · intro failed
    cases read : workspace.readText path with
    | error fault =>
      simp only [read, Except.error.injEq] at failed
      exact failed ▸ .unreadable read
    | ok code =>
      simp only [read, extractFindings, parseSource, Options.forFile, Option.getD_some] at failed
      cases parsed : Script.parse? code (allowsElements path) with
      | none =>
        simp only [parsed] at failed
        obtain rfl : Failure.sourceInvalid path = failure := Except.error.inj failed
        exact .unparsed read parsed
      | some program =>
        simp only [parsed] at failed
        cases failed
  · rintro (read | ⟨read, invalid⟩)
    · simp only [read]
    · simp only [read, extractFindings, parseSource, Options.forFile, Option.getD_some, invalid]
      rfl

/-- What a file contributes is the table of its source. -/
theorem extractSource_of_contribution {found : Contribution}
    (contributed : workspace.contribution options baseUrl path = .ok found) :
    ∃ code, workspace.readText path = .ok code ∧
      extractSource code (options.forFile baseUrl path) = .ok found.table := by
  unfold contribution at contributed
  cases read : workspace.readText path with
  | error fault =>
    simp only [read] at contributed
    cases contributed
  | ok code =>
    simp only [read] at contributed
    cases extracted : extractFindings code (options.forFile baseUrl path) with
    | error failure =>
      simp only [extracted] at contributed
      cases contributed
    | ok findings =>
      simp only [extracted] at contributed
      obtain rfl : Contribution.mk path findings = found := Except.ok.inj contributed
      refine ⟨code, rfl, ?_⟩
      rw [extractSource, extracted]
      rfl

/-! ### Batches -/

theorem not_rejects_of_contribution {found : Contribution}
    (contributed : workspace.contribution options baseUrl path = .ok found) (failure : Failure) :
    ¬ workspace.Rejects path failure := by
  intro rejected
  have failed := @contribution_eq_error_iff workspace options baseUrl path failure
  rw [contributed] at failed
  cases failed.mpr rejected

/-- Some file is rejected exactly if there is a first one. -/
theorem exists_firstRejected_iff :
    (∃ failure, workspace.FirstRejected paths failure) ↔
      ∃ path ∈ paths, ∃ failure, workspace.Rejects path failure := by
  constructor
  · rintro ⟨failure, first⟩
    induction first with
    | here rejected => exact ⟨_, List.mem_cons_self, _, rejected⟩
    | later _ _ inductionHypothesis =>
      obtain ⟨path, member, rejected⟩ := inductionHypothesis
      exact ⟨path, List.mem_cons_of_mem _ member, rejected⟩
  · rintro ⟨path, member, failure, rejected⟩
    induction paths with
    | nil => cases member
    | cons head rest inductionHypothesis =>
      by_cases headRejected : ∃ headFailure, workspace.Rejects head headFailure
      · obtain ⟨headFailure, headRejected⟩ := headRejected
        exact ⟨headFailure, .here headRejected⟩
      · have sound := not_exists.mp headRejected
        rcases List.mem_cons.mp member with rfl | later
        · exact absurd rejected (sound failure)
        · obtain ⟨first, isFirst⟩ := inductionHypothesis later
          exact ⟨first, .later sound isFirst⟩

/-- Reading all files fails with the failure of the first one that is rejected. -/
theorem contributions_eq_error_iff :
    paths.mapM (workspace.contribution options baseUrl) = .error failure ↔
      workspace.FirstRejected paths failure := by
  induction paths with
  | nil => exact iff_of_false (fun failed => by cases failed) (fun first => by cases first)
  | cons path rest inductionHypothesis =>
    rw [List.mapM_cons]
    cases first : workspace.contribution options baseUrl path with
    | error firstFailure =>
      have rejected := contribution_eq_error_iff.mp first
      constructor
      · intro failed
        obtain rfl : firstFailure = failure := Except.error.inj failed
        exact .here rejected
      · rintro (here | ⟨sound, -⟩)
        · rw [contribution_eq_error_iff.mpr here] at first
          obtain rfl : failure = firstFailure := Except.error.inj first
          rfl
        · exact absurd rejected (sound firstFailure)
    | ok found =>
      have sound := not_rejects_of_contribution first
      cases others : rest.mapM (workspace.contribution options baseUrl) with
      | error restFailure =>
        rw [others] at inductionHypothesis
        constructor
        · intro failed
          exact .later sound (inductionHypothesis.mp failed)
        · rintro (here | ⟨-, later⟩)
          · exact absurd here (sound failure)
          · exact inductionHypothesis.mpr later
      | ok contributions =>
        rw [others] at inductionHypothesis
        refine iff_of_false (fun failed => by cases failed) ?_
        rintro (here | ⟨-, later⟩)
        · exact sound failure here
        · cases inductionHypothesis.mpr later

theorem documentFiles_eq_error_iff :
    workspace.documentFiles paths options baseUrl = .error failure ↔
      workspace.FirstRejected paths failure := by
  have read := @contributions_eq_error_iff workspace options baseUrl paths failure
  rw [documentFiles]
  cases contributed : paths.mapM (workspace.contribution options baseUrl) with
  | error firstFailure =>
    rw [contributed, Except.error.injEq] at read
    rw [← read]
    exact ⟨Except.error.inj, congrArg Except.error⟩
  | ok contributions =>
    rw [contributed] at read
    exact iff_of_false (fun failed => by cases failed) (fun first => by cases read.mpr first)

/-- Files that can all be read contribute the tables of their sources, in their order. -/
theorem forall₂_contributions {contributions : List Contribution}
    (contributed : paths.mapM (workspace.contribution options baseUrl) = .ok contributions) :
    List.Forall₂ (fun path found => workspace.contribution options baseUrl path = .ok found)
      paths contributions := by
  induction paths generalizing contributions with
  | nil =>
    obtain rfl : [] = contributions := Except.ok.inj contributed
    exact .nil
  | cons path rest inductionHypothesis =>
    rw [List.mapM_cons] at contributed
    cases first : workspace.contribution options baseUrl path with
    | error failure =>
      rw [first] at contributed
      cases contributed
    | ok found =>
      cases others : rest.mapM (workspace.contribution options baseUrl) with
      | error failure =>
        rw [first, others] at contributed
        cases contributed
      | ok more =>
        rw [first, others] at contributed
        obtain rfl : found :: more = contributions := Except.ok.inj contributed
        exact .cons first (inductionHypothesis others)

/-- A batch without a rejected file: the tables of its sources are merged in their order and
corrected, and every file counts. -/
theorem documentFiles_eq_ok (sound : ∀ failure, ¬ workspace.FirstRejected paths failure) :
    ∃ tables batch,
      List.Forall₂ (fun path table => ∃ code, workspace.readText path = .ok code ∧
        extractSource code (options.forFile baseUrl path) = .ok table) paths tables ∧
      workspace.documentFiles paths options baseUrl = .ok batch ∧
      (⟨batch.table, batch.promotions⟩ : Resolved) =
        (Table.empty.extendAll tables).resolve options.resolution ∧
      batch.files = paths.length := by
  cases contributed : paths.mapM (workspace.contribution options baseUrl) with
  | error failure => exact absurd (contributions_eq_error_iff.mp contributed) (sound failure)
  | ok contributions =>
    have each := forall₂_contributions contributed
    refine ⟨contributions.map Contribution.table,
      .ofContributions contributions options.resolution, ?_, ?_, rfl, each.length_eq.symm⟩
    · rw [List.forall₂_map_right_iff]
      exact each.imp (fun path found => extractSource_of_contribution)
    · rw [documentFiles, contributed]
      rfl

/-! ### Workers -/

/-- The worker of the file at a place finishes. What it found goes to that place. -/
def deliver (workspace : Workspace) (options : Options) (baseUrl : Option String)
    (paths : List String) (delivered : List (Option (Except Failure Contribution)))
    (place : Nat) : List (Option (Except Failure Contribution)) :=
  match paths[place]? with
  | none => delivered
  | some path => delivered.set place (some (workspace.contribution options baseUrl path))

end Workspace

/-- Merges what the workers delivered, in the order of the places, once nothing is missing. -/
def Batch.ofDelivered? (delivered : List (Option (Except Failure Contribution)))
    (resolution : Resolution) : Option (Except Failure Batch) :=
  (delivered.mapM id).map fun results => do
    let contributions ← results.mapM id
    return .ofContributions contributions resolution

namespace Workspace

variable {workspace : Workspace} {options : Options} {baseUrl : Option String}
  {paths : List String} {failure : Failure}

theorem getElem?_deliver {delivered : List (Option (Except Failure Contribution))}
    (sizes : delivered.length = paths.length) (place other : Nat) :
    (workspace.deliver options baseUrl paths delivered place)[other]? =
      if other = place then paths[other]?.map (some ∘ workspace.contribution options baseUrl)
      else delivered[other]? := by
  unfold deliver
  cases held : paths[place]? with
  | none =>
    have outside : delivered.length ≤ place := sizes ▸ List.getElem?_eq_none_iff.mp held
    by_cases same : other = place
    · rw [if_pos same, same, held, List.getElem?_eq_none outside]
      rfl
    · rw [if_neg same]
  | some path =>
    have inside := (List.getElem?_eq_some_iff.mp held).1
    simp only [List.getElem?_set]
    by_cases same : other = place
    · rw [if_pos same, if_pos same.symm, if_pos (by omega), same, held]
      rfl
    · rw [if_neg same, if_neg (Ne.symm same)]

theorem length_deliver (delivered : List (Option (Except Failure Contribution))) (place : Nat) :
    (workspace.deliver options baseUrl paths delivered place).length = delivered.length := by
  unfold deliver
  split
  · rfl
  · exact List.length_set

/-- Behind some workers, the places of their files hold what they found, and no others. -/
theorem getElem?_foldl_deliver {delivered : List (Option (Except Failure Contribution))}
    (sizes : delivered.length = paths.length) (order : List Nat) (other : Nat) :
    (order.foldl (workspace.deliver options baseUrl paths) delivered)[other]? =
      if other ∈ order then paths[other]?.map (some ∘ workspace.contribution options baseUrl)
      else delivered[other]? := by
  induction order generalizing delivered with
  | nil => rfl
  | cons place rest inductionHypothesis =>
    rw [List.foldl_cons, inductionHypothesis ((length_deliver delivered place).trans sizes),
      getElem?_deliver sizes]
    by_cases later : other ∈ rest
    · rw [if_pos later, if_pos (List.mem_cons_of_mem _ later)]
    · by_cases same : other = place
      · rw [if_neg later, if_pos same, if_pos (same ▸ List.mem_cons_self)]
      · rw [if_neg later, if_neg same, if_neg (List.not_mem_cons_of_ne_of_not_mem same later)]

/-- Whatever the order in which the workers finish, they deliver the same. -/
theorem foldl_deliver_of_perm {order : List Nat} (all : order.Perm (List.range paths.length)) :
    order.foldl (workspace.deliver options baseUrl paths) (paths.map fun _ => none) =
      paths.map (some ∘ workspace.contribution options baseUrl) := by
  refine List.ext_getElem? (fun place => ?_)
  rw [getElem?_foldl_deliver (List.length_map _), List.getElem?_map, List.getElem?_map]
  split
  · rfl
  · rename_i absent
    rw [all.mem_iff, List.mem_range, Nat.not_lt] at absent
    rw [List.getElem?_eq_none absent]
    rfl

theorem ofDelivered?_map_some (paths : List String) (resolution : Resolution)
    (contribute : String → Except Failure Contribution) :
    Batch.ofDelivered? (paths.map (some ∘ contribute)) resolution =
      some (do
        let contributions ← paths.mapM contribute
        return .ofContributions contributions resolution) := by
  have present : (paths.map (some ∘ contribute)).mapM id = some (paths.map contribute) := by
    induction paths with
    | nil => rfl
    | cons path rest inductionHypothesis =>
      rw [List.map_cons, List.mapM_cons, inductionHypothesis]
      rfl
  rw [Batch.ofDelivered?, present, Option.map_some, List.mapM_map]
  rfl

/-! ### Configurations that fail -/

/-- Why the configuration that holds for the working directory fails a run: it cannot be read, it
is no configuration, or one of its patterns is none. -/
inductive ConfigFails (workspace : Workspace) : Failure → Prop where
  | unreadable {root : List String} {fault : FileFault}
      (found : workspace.configRoot? = some root)
      (read : workspace.readText (pathOf (root ++ [Config.fileName])) = .error fault) :
      ConfigFails workspace (.configUnreadable (pathOf (root ++ [Config.fileName])) fault)
  | unparsed {root : List String} {text : String} {fault : Json.Fault}
      (found : workspace.configRoot? = some root)
      (read : workspace.readText (pathOf (root ++ [Config.fileName])) = .ok text)
      (invalid : Config.ofText text = .error fault) :
      ConfigFails workspace (.configInvalid (pathOf (root ++ [Config.fileName])) fault)
  | rejected {root : List String} {text : String} {config : Config} {failure : Failure}
      (found : workspace.configRoot? = some root)
      (read : workspace.readText (pathOf (root ++ [Config.fileName])) = .ok text)
      (parsed : Config.ofText text = .ok config) (invalid : config.validate = .error failure) :
      ConfigFails workspace failure

theorem loadConfig_eq_error (fails : workspace.ConfigFails failure) :
    workspace.loadConfig = .error failure := by
  cases fails with
  | unreadable found read => simp only [loadConfig, found, readConfig, read]; rfl
  | unparsed found read invalid => simp only [loadConfig, found, readConfig, read, invalid]; rfl
  | rejected found read parsed invalid =>
    simp only [loadConfig, found, readConfig, read, parsed, invalid]
    rfl

end Workspace

/-! ### Extractions that fail -/

namespace Action

variable {First Second : Type}

theorem get_bind (next : Session → Action Second) (session : Session) :
    (get >>= next : Action Second) session = next session session := rfl

theorem lift_ok_bind (value : First) (next : First → Action Second) (session : Session) :
    (liftM (Except.ok value : Except Failure First) >>= next : Action Second) session =
      next value session := rfl

/-- What fails without touching the session ends an action there. -/
theorem lift_error_bind (failure : Failure) (next : First → Action Second) (session : Session) :
    (liftM (Except.error failure : Except Failure First) >>= next : Action Second) session =
      (.error failure, session) := rfl

end Action

namespace Workspace

variable {workspace : Workspace} {request : Request} {failure : Failure}

/-- A failure to load the configuration ends an extraction before it has done anything. -/
theorem perform_extract_of_loadConfig (fails : workspace.loadConfig = .error failure) :
    workspace.perform (.extract request) = (.error failure, workspace.session) := by
  have loaded : workspace.session.workspace.loadConfig = .error failure := fails
  show Action.extract request workspace.session = _
  rw [Action.extract, Action.get_bind, loaded, Action.lift_error_bind]

/-- And so does a batch that fails. -/
theorem perform_extract_of_documentFiles {configured : Configured}
    (loaded : workspace.loadConfig = .ok configured)
    (fails : workspace.FirstRejected (workspace.scanRequest request configured).files failure) :
    workspace.perform (.extract request) = (.error failure, workspace.session) := by
  have sameLoaded : workspace.session.workspace.loadConfig = .ok configured := loaded
  have sameFails (options : Options) (baseUrl : Option String) :
      workspace.session.workspace.documentFiles
        (workspace.session.workspace.scanRequest request configured).files options baseUrl =
          .error failure :=
    documentFiles_eq_error_iff.mpr fails
  show Action.extract request workspace.session = _
  rw [Action.extract, Action.get_bind, sameLoaded, Action.lift_ok_bind]
  simp only [sameFails]
  rw [Action.lift_error_bind]

end Workspace

/-- A batch fails exactly if one of its files cannot be read as a text or does not parse, with the
failure of the first such file, whatever the order in which the workers finish. Otherwise it is the
correction of the tables of its files, merged in their order. And if the configuration cannot be
loaded, is rejected, or one of the files fails, an extraction ends with that failure: the disk is as
it was, no file was written and nothing went to the output. -/
theorem batch_fails_as_a_whole (workspace : Workspace) :
    (∀ (paths : List String) (options : Options) (baseUrl : Option String),
      ((∃ failure, workspace.documentFiles paths options baseUrl = .error failure) ↔
        ∃ path ∈ paths, ∃ failure, workspace.Rejects path failure) ∧
      (∀ failure, workspace.documentFiles paths options baseUrl = .error failure ↔
        workspace.FirstRejected paths failure) ∧
      (∀ order : List Nat, order.Perm (List.range paths.length) →
        Batch.ofDelivered?
          (order.foldl (workspace.deliver options baseUrl paths) (paths.map fun _ => none))
          options.resolution = some (workspace.documentFiles paths options baseUrl)) ∧
      ((∀ path ∈ paths, ∀ failure, ¬ workspace.Rejects path failure) →
        ∃ tables batch,
          List.Forall₂ (fun path table => ∃ code, workspace.readText path = .ok code ∧
            extractSource code (options.forFile baseUrl path) = .ok table) paths tables ∧
          workspace.documentFiles paths options baseUrl = .ok batch ∧
          (⟨batch.table, batch.promotions⟩ : Resolved) =
            (Table.empty.extendAll tables).resolve options.resolution ∧
          batch.files = paths.length)) ∧
    ∀ (request : Request) (failure : Failure),
      (workspace.ConfigFails failure ∨ ∃ configured, workspace.loadConfig = .ok configured ∧
        workspace.FirstRejected (workspace.scanRequest request configured).files failure) →
      workspace.perform (.extract request) =
        (.error failure, { workspace := workspace, written := none, output := "" }) := by
  refine ⟨fun paths options baseUrl => ⟨?_, fun failure => Workspace.documentFiles_eq_error_iff,
    fun order all => ?_, fun sound => ?_⟩, fun request failure fails => ?_⟩
  · simp only [Workspace.documentFiles_eq_error_iff]
    exact Workspace.exists_firstRejected_iff
  · rw [Workspace.foldl_deliver_of_perm all, Workspace.ofDelivered?_map_some]
    rfl
  · refine Workspace.documentFiles_eq_ok (fun failure first => ?_)
    obtain ⟨path, member, rejection, rejected⟩ :=
      Workspace.exists_firstRejected_iff.mp ⟨failure, first⟩
    exact sound path member rejection rejected
  · rcases fails with fails | ⟨configured, loaded, first⟩
    · exact Workspace.perform_extract_of_loadConfig (Workspace.loadConfig_eq_error fails)
    · exact Workspace.perform_extract_of_documentFiles loaded first

/-- Of three files, the first is empty, the second no text and the third no script. -/
def brokenFiles : Workspace where
  disk := .file "a.js" "".toUTF8
    (.file "b.js" ⟨#[255]⟩ (.file "c.js" "var".toUTF8 .empty))

theorem firstRejected_brokenFiles :
    brokenFiles.FirstRejected ["a.js", "b.js", "c.js"] (.fileUnreadable "b.js" .notText) := by
  have parsed : (Script.parse? "" (allowsElements "a.js")).isSome = true := by decide +kernel
  have read : brokenFiles.readText "a.js" = .ok "" := rfl
  refine .later ?_ (.here (.unreadable rfl))
  rintro failure (unread | ⟨found, unparsed⟩)
  · rw [read] at unread
    cases unread
  · rw [read] at found
    cases found
    rw [unparsed] at parsed
    cases parsed

theorem batch_fails_as_a_whole_brokenFiles :
    [2, 0, 1].Perm (List.range ["a.js", "b.js", "c.js"].length) ∧
      Batch.ofDelivered? ([2, 0, 1].foldl
          (brokenFiles.deliver {} none ["a.js", "b.js", "c.js"]) [none, none, none]) .singleSweep =
        some (.error (.fileUnreadable "b.js" .notText)) ∧
      brokenFiles.perform
          (.extract { paths := ["a.js", "b.js", "c.js"], output := some "out.json" }) =
        (.error (.fileUnreadable "b.js" .notText),
          { workspace := brokenFiles, written := none, output := "" }) := by
  have first := firstRejected_brokenFiles
  have order : [2, 0, 1].Perm (List.range ["a.js", "b.js", "c.js"].length) := by decide
  obtain ⟨batch, extraction⟩ := batch_fails_as_a_whole brokenFiles
  obtain ⟨-, fails, delivers, -⟩ := batch ["a.js", "b.js", "c.js"] {} none
  refine ⟨order, ?_, ?_⟩
  · rw [← (fails _).mpr first]
    exact delivers [2, 0, 1] order
  · refine extraction _ _ (Or.inr ⟨⟨.default, none⟩, rfl, ?_⟩)
    have files : (brokenFiles.scanRequest
        { paths := ["a.js", "b.js", "c.js"], output := some "out.json" }
        ⟨.default, none⟩).files = ["a.js", "b.js", "c.js"] := by decide +kernel
    rw [files]
    exact first

end DocEntities
