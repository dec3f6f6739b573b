/-
This file says what becomes of a new configuration. Its text is the one of the defaults, and a
configuration is read back from its text as it was, so what was written is what is read: the same
patterns are accepted, and sources are read with the same options. On the disk the new file stands
in the working directory itself, which is the first place where a configuration is searched, and
its path from the top of the disk leads there.
-/

import DocEntities.Proofs.BatchFailure
import DocEntities.Proofs.Disk
import DocEntities.Proofs.Json.ConfigText
import DocEntities.Proofs.WorkingDirectory

namespace DocEntities

open DocEntities.Path

/-! ### What is put on a disk -/

namespace Directory

theorem find?_put (directory : Directory) (name : String) (entry : Node) :
    (directory.put name entry).find? name = some entry := by
  induction directory using consInduction with
  | empty => rw [put, find?_cons, if_pos rfl]
  | unlisted reason rest inductionHypothesis => exact inductionHypothesis
  | cons other old rest _ inductionHypothesis =>
    rw [put_cons]
    split
    · rw [find?_cons, if_pos rfl]
    · rename_i different
      split
      · rw [find?_cons, if_pos rfl]
      · rw [find?_cons, if_neg different, inductionHypothesis]

/-- What is put below a place is what stands there. -/
theorem at?_putAt (entry : Node) {location : List String} (below : location ≠ [])
    (disk : Directory) : (Node.folder (putAt entry location disk)).at? location = some entry := by
  fun_induction putAt entry location disk with
  | case1 => exact absurd rfl below
  | case2 directory name => rw [Node.at?, find?_put]; rfl
  | case3 name next rest directory inside inductionHypothesis =>
    rw [Node.at?, find?_put]
    exact inductionHypothesis (List.cons_ne_nil _ _)

end Directory

/-! ### Paths from the top -/

theorem Path.IsName.not_endsWithSeparator {name : String} (named : IsName name) :
    endsWithSeparator name = false := by
  rw [endsWithSeparator, beq_eq_false_iff_ne]
  exact fun ends => named.free.1 (List.mem_of_mem_getLast? ends)

namespace Workspace

theorem pathOf_concat {location : List String} (some : location ≠ []) (last : String) :
    pathOf (location ++ [last]) = pathOf location ++ "/" ++ last := by
  rw [pathOf, Text.join_concat "/" some, pathOf]
  simp only [String.append_assoc]

/-- The path of a place ends in its name. -/
theorem not_endsWithSeparator_pathOf {location : List String} {last : String}
    (isName : IsName last) : endsWithSeparator (pathOf (location ++ [last])) = false := by
  cases location with
  | nil => exact (endsWithSeparator_append "/" isName.some).trans isName.not_endsWithSeparator
  | cons name more =>
    rw [pathOf_concat (List.cons_ne_nil name more), endsWithSeparator_append _ isName.some]
    exact isName.not_endsWithSeparator

/-- The path of a place goes on name by name from the top of the disk. -/
theorem pathOf_eq_foldl_join {location : List String} (named : ∀ name ∈ location, IsName name) :
    pathOf location = location.foldl join "/" := by
  induction location using List.reverseRecOn with
  | nil => rfl
  | append_singleton location last inductionHypothesis =>
    obtain ⟨frontNamed, lastNamed⟩ := List.forall_mem_append.mp named
    have isName : IsName last := lastNamed last (List.mem_singleton_self last)
    rw [List.foldl_append, List.foldl_cons, List.foldl_nil, ← inductionHypothesis frontNamed,
      join_of_relative _ isName.relative]
    rcases List.eq_nil_or_concat' location with rfl | ⟨front, name, rfl⟩
    · rfl
    · have closed : endsWithSeparator (pathOf (front ++ [name])) = false :=
        not_endsWithSeparator_pathOf (frontNamed name (by simp))
      have some : pathOf (front ++ [name]) ≠ "" := by
        rw [pathOf, Ne, String.append_eq_empty_iff]
        exact fun both => absurd both.1 (by decide)
      rw [pathOf_concat (by simp), lead_of_ne_empty some, closed]
      rfl

variable {workspace : Workspace}

/-- A path from the top of the disk leads to the place that it names. -/
theorem find_pathOf (formed : workspace.disk.IsWellFormed) {location : List String} {entry : Node}
    (below : location ≠ []) (here : workspace.nodeAt? location = some entry)
    (fits : (pathOf location).utf8ByteSize ≤ longestPath) :
    workspace.find (pathOf location) = .ok entry := by
  have named : ∀ name ∈ location, IsName name := (isWellFormed_of_nodeAt? formed here).2
  have down : (Node.folder workspace.disk).LeadsDown location entry := ⟨below, named, here⟩
  have top : workspace.nodeAt? [] = some (.folder workspace.disk) := rfl
  obtain ⟨followed, there⟩ := follow_of_leadsDown top down
  have absolute : isAbsolute (pathOf location) = true := isAbsolute_pathOf location
  have steps : steps (pathOf location) = location := by
    rw [pathOf_eq_foldl_join named, steps_foldl_join below named]
    rfl
  have spelled : IsSpelled (pathOf location) := by
    rw [pathOf_eq_foldl_join named]
    exact isSpelled_foldl_join named ⟨by decide, rfl⟩
  refine find_eq_ok_iff.mpr ⟨⟨spelled, location, ?_, here⟩, fits⟩
  rw [start, if_pos absolute, steps]
  exact followed

/-! ### Writing into the working directory -/

/-- The name of an entry of the working directory leads to it. -/
theorem find_of_nodeAt?_concat {name : String} (isName : IsName name) {entry : Node}
    (there : workspace.nodeAt? (workspace.location ++ [name]) = some entry) :
    workspace.find name = .ok entry := by
  have found := there
  rw [nodeAt?, Node.at?_append, Option.bind_eq_some_iff] at found
  obtain ⟨here, isHere, isEntry⟩ := found
  have down : here.LeadsDown [name] entry :=
    ⟨List.cons_ne_nil _ _, List.forall_mem_singleton.mpr isName, isEntry⟩
  have spelled : IsSpelled name :=
    ⟨isName.some, by rw [List.contains_eq_mem]; exact decide_eq_false isName.free.2⟩
  refine find_eq_ok_iff.mpr ⟨⟨spelled, workspace.location ++ [name], ?_, there⟩,
    Nat.le_trans isName.fits (by decide)⟩
  rw [start, isName.relative, isName.steps]
  exact (follow_of_leadsDown isHere down).1

/-- A file that was written by its name stands in the working directory, if nothing had that name
before. -/
theorem nodeAt?_of_writeText {changed : Workspace} {name text : String} (isName : IsName name)
    (isNew : workspace.exists? name = false)
    (written : workspace.writeText name text = .ok changed) :
    changed.location = workspace.location ∧
      changed.nodeAt? (workspace.location ++ [name]) = some (.file text.toUTF8) := by
  have names : (Path.pieces name).filter (fun piece => !piece.isEmpty) = [name] := by
    rw [isName.pieces]
    simp [isName.some]
  have here : workspace.start name = workspace.location := by
    rw [start, isName.relative]
    rfl
  simp only [writeText, names, List.getLast?_singleton, List.dropLast_singleton, here, follow,
    isName.not_endsWithSeparator, bind, Except.bind, Bool.false_eq_true, if_false] at written
  split at written
  · cases written
  · rcases writeAt_eq_ok written with ⟨swallows, -⟩ | ⟨-, -, -, rfl⟩
    · rw [exists?, find_of_nodeAt?_concat isName swallows] at isNew
      cases isNew
    · exact ⟨rfl, Directory.at?_putAt _ (by simp) _⟩

theorem textOf_file_toUTF8 (text : String) : textOf (.file text.toUTF8) = .ok text := by
  have read : String.fromUTF8? text.toUTF8 = some text := dif_pos text.isValidUTF8
  rw [textOf, read]

/-- A configuration that stands in the working directory is the one that is loaded. -/
theorem loadConfig_of_nodeAt? (formed : workspace.disk.IsWellFormed) {text : String}
    {config : Config}
    (here : workspace.nodeAt? (workspace.location ++ [Config.fileName]) = some (.file text.toUTF8))
    (fits : (pathOf (workspace.location ++ [Config.fileName])).utf8ByteSize ≤ longestPath)
    (read : Config.ofText text = .ok config) (valid : config.validate = .ok ()) :
    workspace.loadConfig = .ok ⟨config, some workspace.location⟩ := by
  have found : workspace.configRoot? = some workspace.location :=
    configRootFrom?_of_holds (by rw [holds, here]; rfl)
  have readText : workspace.readText (pathOf (workspace.location ++ [Config.fileName])) =
      .ok text := by
    rw [Workspace.readText, find_pathOf formed (by simp) here fits]
    exact textOf_file_toUTF8 text
  simp only [loadConfig, found, readConfig, readText, read, valid]
  rfl

end Workspace

/-! ### A new configuration -/

/-- An action goes on in the session in which a file was written, or ends where it was not. -/
theorem Action.writeFile_bind {Result : Type} (path text : String)
    (next : Unit → Action Result) (session : Session) :
    (writeFile path text >>= next : Action Result) session =
      match session.workspace.writeText path text with
      | .ok changed => next () { session with workspace := changed, written := some (path, text) }
      | .error fault => (.error (.fileUnwritable path fault), session) := by
  show ((get >>= fun found => _ : Action Unit) >>= next : Action Result) session = _
  rw [bind_assoc, get_bind]
  cases session.workspace.writeText path text <;> rfl

/-- What a run that makes a configuration leaves behind. -/
theorem Workspace.written_of_run_init {workspace : Workspace} {outcome : Outcome}
    (made : workspace.run .init = .ok outcome) :
    workspace.exists? Config.fileName = false ∧
      outcome.written = some (Config.fileName, Config.defaultText) ∧
      workspace.writeText Config.fileName Config.defaultText = .ok outcome.workspace := by
  unfold run at made
  split at made
  · rename_i account session performed
    cases made
    change Action.createConfig workspace.session = _ at performed
    rw [Action.createConfig, Action.get_bind] at performed
    split at performed
    · cases performed
    · rename_i isNew
      beta_reduce at performed
      rw [Action.writeFile_bind] at performed
      split at performed
      · rename_i changed written
        cases performed
        exact ⟨Bool.not_eq_true _ ▸ isNew, rfl, written⟩
      · cases performed
  · cases made

theorem Config.validate_default : Config.default.validate = .ok () := by
  decide +kernel

/-- Whatever a configuration holds, it is read back from its text as it was, on one line or on
many: with all its fields, so its patterns are accepted or rejected as before and it gives the same
options. What a run that makes a configuration writes is read as the default one, and from the
directory where it was written it is the one that is loaded, if its path from the top of the disk
can be looked up. -/
theorem config_survives_writing :
    (∀ (config : Config) (layout : Json.Layout), layout = .pretty ∨ layout = .compact →
      Config.ofText (config.toJson.render layout) = .ok config ∧
      (Config.ofText (config.toJson.render layout)).map
          (fun read => (read.validate, read.options)) =
        .ok (config.validate, config.options)) ∧
    ∀ (workspace : Workspace) (outcome : Outcome), workspace.run .init = .ok outcome →
      ∃ text, outcome.written = some (Config.fileName, text) ∧
        Config.ofText text = .ok .default ∧
        (workspace.disk.IsWellFormed →
          (Workspace.pathOf (workspace.location ++ [Config.fileName])).utf8ByteSize ≤
            Workspace.longestPath →
          outcome.workspace.loadConfig = .ok ⟨.default, some workspace.location⟩) := by
  have survives (config : Config) {layout : Json.Layout}
      (named : layout = .pretty ∨ layout = .compact) :
      Config.ofText (config.toJson.render layout) = .ok config := by
    rcases named with rfl | rfl
    · exact config.ofText_write Json.Layout.spaced_pretty
    · exact config.ofText_write Json.Layout.spaced_compact
  constructor
  · intro config layout named
    have read := survives config named
    refine ⟨read, ?_⟩
    rw [read]
    rfl
  · intro workspace outcome made
    obtain ⟨isNew, written, changed⟩ := Workspace.written_of_run_init made
    have read : Config.ofText Config.defaultText = .ok .default := by
      rw [Config.defaultText]
      exact survives .default (Or.inl rfl)
    have isName : IsName Config.fileName := by decide +kernel
    obtain ⟨same, here⟩ := Workspace.nodeAt?_of_writeText isName isNew changed
    refine ⟨Config.defaultText, written, read, fun formed fits => ?_⟩
    rw [← same] at fits here ⊢
    exact Workspace.loadConfig_of_nodeAt? (Workspace.isWellFormed_writeText formed changed) here
      fits read Config.validate_default

/-- A configuration with every field away from its default and texts that have to be escaped. -/
def unusualConfig : Config where
  includes := []
  ignores := ["\"\\\u0001é", ""]
  baseUrl := some ""
  utilityNamespaces := ["$"]
  resolution := .fixedPoint

/-- A disk on which one may work in an empty directory. -/
def emptyProject : Directory :=
  .folder "repo" .empty .empty

theorem config_survives_in_emptyProject :
    Config.ofText (unusualConfig.toJson.render Json.Layout.compact) = .ok unusualConfig ∧
      emptyProject.IsWellFormed ∧
      ∃ outcome, (emptyProject.openedAt ["repo"]).run .init = .ok outcome ∧
        outcome.workspace.loadConfig = .ok ⟨.default, some ["repo"]⟩ := by
  have formed : emptyProject.IsWellFormed := by decide +kernel
  have fits : (Workspace.pathOf ["repo", Config.fileName]).utf8ByteSize ≤
      Workspace.longestPath := by decide +kernel
  have compact := (config_survives_writing.1 unusualConfig .compact (Or.inr rfl)).1
  have runs : ((emptyProject.openedAt ["repo"]).run .init).isOk = true := by decide +kernel
  refine ⟨compact, formed, ?_⟩
  cases made : (emptyProject.openedAt ["repo"]).run .init with
  | error failure => rw [made] at runs; cases runs
  | ok outcome =>
    obtain ⟨text, -, -, loads⟩ := config_survives_writing.2 _ outcome made
    exact ⟨outcome, rfl, loads formed fits⟩

end DocEntities
