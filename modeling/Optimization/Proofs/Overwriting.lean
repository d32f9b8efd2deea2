import Optimization.Engine.Standard
import Optimization.Proofs.Printing
import Optimization.Proofs.Refusals

/-!
# What a load does to files

A load writes its output file, and lets the engine write what the model asks for. A temporary output
file is new and is removed again on every exit. A given one is emptied and then takes what the
engine says, whatever file its path names, the model file or the data file among them: no check
keeps these apart.

* `addProblem_files` : what comes out is added to a model without any file;
* `Unready`, `load_of_unready` : loads that are refused before any file is touched;
* `start`, `load_files` : where the engine starts, and which files a load leaves;
* `load_overwrites` : what becomes of each file, by its identity;
* `load_standard` : what the standard engine writes of its own accord is asked for by redirected
  prints of the model;
* `model_overwritten` : loads that lose the model file, or leave a new one.
-/

namespace Optimization
open Optimization.Action (Along Steady)
open Files (Confined SameTree)

/-! ### Building without files -/

/-- The files are as they were. -/
def SameFiles (w w' : Workspace) : Prop := w'.files = w.files

instance : Steady SameFiles where
  refl _ := rfl
  trans h h' := h'.trans h

theorem Problem.release_files (r : Ref Lifetime) (w : Workspace) :
    (Problem.release r w).files = w.files := by
  unfold Problem.release
  split <;> rfl

namespace Reconstruction

theorem stepwise_sameFiles : Stepwise SameFiles where
  newVariable request w := by
    rw [Action.after, Modeling.run_newVariable]
    split <;> rfl
  addVariable r v w := by
    rw [Action.after, Modeling.run_addVariable]
    split <;> rfl
  newConstraint _ _ := rfl
  addConstraint _ _ _ _ := rfl
  addObjective _ _ _ := rfl
  note _ _ _ _ := rfl

/-- Nothing of the addition of a problem needs files. -/
theorem addProblem_files (r : Ref Model) (q : Problem) : Along SameFiles (addProblem r q) :=
  stepwise_sameFiles.addProblem r q

theorem reconstruct_files (r : Ref Model) (cell : Ref Lifetime) :
    Along SameFiles (reconstruct r cell) := by
  have hlive : Along SameFiles (Problem.live cell) := .of_after fun w => by
    by_cases h : ∃ p, w.problems.get? cell = some (.live p)
    · obtain ⟨p, hp⟩ := h
      rw [Action.after, Problem.live_run hp]
    · rw [Action.after, Problem.live_run_of_not_live h]
  exact hlive.bind fun q => addProblem_files r q

end Reconstruction

namespace Loading

variable {engine : Engine} {r : Ref Model} {model path : String} {data output : Option String}
  {w : Workspace} {files : Files} {file : Ref ByteArray}

/-! ### Refused loads -/

/-- A load is refused at once: its model file or its data file is missing, or its output file has
an empty name. -/
def Unready (files : Files) (model : String) (data output : Option String) : Prop :=
  files.isFile model = false ∨ (∃ d, givenPath data = some d ∧ files.isFile d = false) ∨
    output = some ""

/-- The checks touch nothing, and refuse just the loads that are not ready. -/
theorem check_run (model : String) (data output : Option String) (w : Workspace) :
    (Unready w.files model data output ∧
        ∃ fault, (check model data output).run w = (.error fault, w)) ∨
      ¬Unready w.files model data output ∧ (check model data output).run w = (.ok (), w) := by
  rw [check, Action.run_bind_of_ok _ (Action.run_get w)]
  unfold Unready
  dsimp only
  cases w.files.isFile model with
  | false => exact .inl ⟨.inl rfl, _, rfl⟩
  | true =>
    rw [if_pos rfl]
    have hlast : (output = some "" ∧ ∃ fault,
          (if output == some "" then throw .emptyOutputName else pure () : Action Unit).run w =
            (.error fault, w)) ∨
        ¬output = some "" ∧
          (if output == some "" then throw .emptyOutputName else pure () : Action Unit).run w =
            (.ok (), w) := by
      by_cases hempty : output = some ""
      · exact .inl ⟨hempty, .emptyOutputName, by simp [hempty]⟩
      · exact .inr ⟨hempty, by simp [hempty]⟩
    cases givenPath data with
    | none =>
      rcases hlast with ⟨h, hrun⟩ | ⟨h, hrun⟩
      · exact .inl ⟨.inr (.inr h), hrun⟩
      · exact .inr ⟨by simp [h], hrun⟩
    | some d =>
      cases hd : w.files.isFile d with
      | false => exact .inl ⟨.inr (.inl ⟨d, rfl, hd⟩), .noDataFile d, by simp only [hd]; rfl⟩
      | true =>
        simp only [hd, if_true]
        rcases hlast with ⟨h, hrun⟩ | ⟨h, hrun⟩
        · exact .inl ⟨.inr (.inr h), hrun⟩
        · exact .inr ⟨by simp [h, hd], hrun⟩

/-- **Before a load is refused at once, nothing is touched.** -/
theorem load_of_unready (engine : Engine) (r : Ref Model)
    (h : Unready w.files model data output) :
    ∃ fault, (load engine r model data output).run w = (.error fault, w) := by
  obtain ⟨-, fault, hcheck⟩ | ⟨hready, -⟩ := check_run model data output w
  · exact ⟨fault, Action.run_bind_of_error _ hcheck⟩
  · exact absurd h hready

/-! ### The start of the engine -/

/-- The system of an engine whose output file is opened and emptied. -/
def emptied (files : Files) (path : String) : Except Fault System := do
  let (file, files) ← files.opened path
  pure ⟨files.setContent file ByteArray.empty, some ⟨file, 0⟩⟩

/-- The system in which the engine of a load starts. -/
def start (files : Files) (output : Option String) : Except Fault System := do
  match output with
  | some path => emptied files path
  | none => emptied files (← temporaryPath files)

theorem emptied_eq_ok {files : Files} {s : System} : emptied files path = .ok s ↔
    ∃ file files', files.opened path = .ok (file, files') ∧
      s = ⟨files'.setContent file ByteArray.empty, some ⟨file, 0⟩⟩ := by
  rw [emptied]
  cases files.opened path with
  | error fault => exact ⟨nofun, nofun⟩
  | ok opened =>
    obtain ⟨file, files'⟩ := opened
    constructor
    · rintro ⟨⟩
      exact ⟨file, files', rfl, rfl⟩
    · rintro ⟨_, _, ⟨⟩, rfl⟩
      rfl

theorem emptied_eq_error {fault : Fault} :
    emptied files path = .error fault ↔ files.opened path = .error fault := by
  rw [emptied]
  cases files.opened path with
  | error fault =>
    constructor
    · rintro ⟨⟩
      rfl
    · rintro ⟨⟩
      rfl
  | ok opened => exact ⟨nofun, nofun⟩

/-- The engine starts with an empty output file, which is no file that its path did not name. -/
theorem emptied_confined {s : System} (h : emptied files path = .ok s) :
    ∃ file, s.output = some ⟨file, 0⟩ ∧ s.files.file? path = some file ∧
      s.files.content file = ByteArray.empty ∧ Confined [file] [file] files s.files ∧
      ∀ other, (files.contents.get? other).isSome → files.file? path ≠ some other →
        other ≠ file := by
  obtain ⟨file, files', hopened, rfl⟩ := emptied_eq_ok.1 h
  obtain ⟨-, hfile, hold⟩ := Files.opened_confined hopened
  obtain ⟨hfile', hconfined⟩ := Files.opened_setContent hopened ByteArray.empty
  refine ⟨file, rfl, hfile', Files.content_setContent (Files.isSome_of_file? hfile) _, hconfined,
    fun other hlive hother => ?_⟩
  rcases hold with ⟨hold, -⟩ | ⟨-, rfl⟩
  · rintro rfl
    exact hother hold
  · exact Store.ne_next_of_get? hlive

theorem openFile_run (h : w.files.opened path = .ok (file, files)) :
    (openFile path).run w = (.ok file, { w with files }) := by
  rw [openFile, Action.run_bind_of_ok _ (Action.run_get w), h]
  rfl

theorem openFile_run_of_error {fault : Fault} (h : w.files.opened path = .error fault) :
    (openFile path).run w = (.error fault, w) := by
  rw [openFile, Action.run_bind_of_ok _ (Action.run_get w), h]
  rfl

/-- A path for a temporary file is free. -/
theorem isFree_of_temporaryPath (h : temporaryPath files = .ok path) :
    files.isFree path = true := by
  unfold temporaryPath at h
  dsimp only at h
  split at h
  · next found hfind =>
    cases h
    exact List.find?_some hfind
  · cases h

/-- **What an engine does beside a new output file** does not depend on how the file was made. -/
theorem run_created {α : Type} {s : System} {place : Place}
    (hopened : files.opened path = .ok (files.contents.next, files.create place))
    (hstart : emptied files path = .ok s) (p : Process α) :
    Confined (p.written s) (files.contents.next :: p.written s) (files.create place)
      (p.run s).2.files := by
  obtain ⟨file, files', hopened', hs⟩ := emptied_eq_ok.1 hstart
  rw [hopened] at hopened'
  cases hopened'
  have hempty : Confined [] [files.contents.next] (files.create place) s.files := by
    rw [hs]
    exact Files.setContent_confined _ _ _
  have hrun := p.run_confined s
  have htarget : s.target = [files.contents.next] := by
    rw [hs]
    rfl
  rw [htarget] at hrun
  exact (hempty.mono (List.nil_subset _) (List.cons_subset_cons _ (List.nil_subset _))).trans hrun

/-! ### The engine and what follows -/

/-- **What an engine leaves is what its process leaves.** -/
theorem readProblemTo_files {s : System} (engine : Engine) (data : Option String)
    (hstart : emptied w.files path = .ok s) (hmodel : s.files.exists? model = true) :
    ∃ problem? w', (readProblemTo engine model data path).run w = (.ok problem?, w') ∧
      w'.files = ((engine.read model (givenPath data)).run s).2.files := by
  obtain ⟨file, files, hopened, rfl⟩ := emptied_eq_ok.1 hstart
  rw [readProblemTo, Action.run_bind_of_ok _ (openFile_run hopened),
    Action.run_bind_of_ok _ (Action.run_get _)]
  show ∃ problem? w', (readModel engine model (givenPath data) (some ⟨file, 0⟩)).run
    { w with files := files.setContent file ByteArray.empty } = (.ok problem?, w') ∧ _
  rw [readModel, Action.run_bind_of_ok _ (Action.run_get _)]
  simp only [hmodel, if_true]
  cases (engine.read model (givenPath data)).run
      ⟨files.setContent file ByteArray.empty, some ⟨file, 0⟩⟩ with
  | mk problem? s =>
    cases problem? with
    | none => exact ⟨none, _, rfl, rfl⟩
    | some q => exact ⟨some w.problems.next, _, rfl, rfl⟩

/-- The text of the output file is read, and a temporary file is removed. -/
theorem readOutput_files (path : String) (temporary : Bool) (w : Workspace) :
    ∃ text w', (readOutput path temporary).run w = (.ok text, w') ∧
      w'.files = if temporary then (w.files.remove path).toOption.getD w.files else w.files := by
  rw [readOutput, Action.run_bind_of_ok _ (Action.run_get w)]
  cases temporary with
  | false => exact ⟨_, w, rfl, rfl⟩
  | true =>
    simp only [if_true]
    have hremove : ∃ w', (removeNoting path).run w = (.ok (), w') ∧
        w'.files = (w.files.remove path).toOption.getD w.files := by
      rw [removeNoting, Action.run_bind_of_ok _ (Action.run_get w)]
      cases w.files.remove path <;> exact ⟨_, rfl, rfl⟩
    obtain ⟨w', hrun, hfiles⟩ := hremove
    rw [Action.run_bind_of_ok _ hrun]
    exact ⟨_, w', rfl, hfiles⟩

/-- After the engine, only a temporary file is removed. -/
theorem finish_files (r : Ref Model) (temporary : Bool) (path : String)
    (problem? : Option (Ref Lifetime)) (w : Workspace) :
    ((finish r temporary path problem?).after w).files =
      if temporary then (w.files.remove path).toOption.getD w.files else w.files := by
  obtain ⟨text, w', hrun, hfiles⟩ := readOutput_files path temporary w
  rw [finish, Action.after, Action.run_bind_of_ok _ hrun, ← hfiles]
  cases problem? with
  | none => rfl
  | some cell =>
    show (((Problem.within cell (Reconstruction.reconstruct r cell)).run w').2).files = _
    rw [Problem.within, Action.run_ensuring]
    exact (Problem.release_files cell _).trans (Reconstruction.reconstruct_files r cell w')

/-! ### Whole loads -/

theorem isFile_of_ready (h : ¬Unready files model data output) : files.isFile model = true := by
  by_contra hmissing
  exact h (.inl (by simpa using hmissing))

/-- A load whose output file can be opened. -/
theorem load_files_of_opened {v : Workspace} {s : System}
    (hopen : (do check model data output; openOutput output : Action String).run w = (.ok path, v))
    (hstart : emptied v.files path = .ok s) (hmodel : s.files.exists? model = true) :
    ((load engine r model data output).after w).files =
      let files := ((engine.read model (givenPath data)).run s).2.files
      if output.isNone then (files.remove path).toOption.getD files else files := by
  obtain ⟨problem?, u, hread, hfiles⟩ := readProblemTo_files engine data hstart hmodel
  rw [load_eq, Action.after, Action.run_bind_of_ok _ hopen,
    Action.run_bind_of_ok _ (by rw [Action.run_attempt, hread])]
  show ((finish r output.isNone path problem?).after u).files = _
  rw [finish_files, hfiles]

/-- The files that the engine of a load writes of its own accord. -/
def written (engine : Engine) (files : Files) (model : String) (data output : Option String) :
    List (Ref ByteArray) :=
  match start files output with
  | .ok s => (engine.read model (givenPath data)).written s
  | .error _ => []

/-- What the engine of a load writes to its output. -/
def said (engine : Engine) (files : Files) (model : String) (data output : Option String) :
    String :=
  match start files output with
  | .ok s => (engine.read model (givenPath data)).said s
  | .error _ => ""

/-- **Without an output file, a load changes just the files that the engine writes of its own
accord**, on every exit. -/
theorem load_without_output (engine : Engine) (r : Ref Model) (model : String)
    (data : Option String) (w : Workspace) :
    Confined (written engine w.files model data none) (written engine w.files model data none)
      w.files ((load engine r model data none).after w).files := by
  obtain ⟨-, fault, hcheck⟩ | ⟨hready, hcheck⟩ := check_run model data none w
  · have hrun : (load engine r model data none).run w = (.error fault, w) :=
      Action.run_bind_of_error _ hcheck
    rw [Action.after, hrun]
    exact .refl _ _ _
  cases hpath : temporaryPath w.files with
  | error fault =>
    have hopen : (do check model data none; openOutput none : Action String).run w =
        (.error fault, w) := by
      rw [Action.run_bind_of_ok _ hcheck, openOutput, Action.run_bind_of_ok _ (Action.run_get w),
        hpath]
      rfl
    rw [load_eq, Action.after, Action.run_bind_of_error _ hopen]
    exact .refl _ _ _
  | ok path =>
    obtain ⟨place, hlanding, hbranch, hleaf, hopened⟩ :=
      Files.opened_of_isFree (isFree_of_temporaryPath hpath)
    obtain ⟨hcreated, hfile, -⟩ := Files.opened_confined hopened
    have hopen : (do check model data none; openOutput none : Action String).run w =
        (.ok path, { w with files := w.files.create place }) := by
      rw [Action.run_bind_of_ok _ hcheck, openOutput, Action.run_bind_of_ok _ (Action.run_get w),
        hpath, Action.run_bind_of_ok _ (Action.run_of (.ok path) w),
        Action.run_bind_of_ok _ (openFile_run hopened)]
      rfl
    obtain ⟨s, hs⟩ : ∃ s, emptied w.files path = .ok s := ⟨_, emptied_eq_ok.2 ⟨_, _, hopened, rfl⟩⟩
    have hstart : emptied (w.files.create place) path = .ok s := by
      -- the file is opened once more after it was made
      obtain ⟨_, _, hopened', hs'⟩ := emptied_eq_ok.1 hs
      rw [hopened] at hopened'
      cases hopened'
      exact emptied_eq_ok.2 ⟨_, _, Files.opened_of_file? hfile, hs'⟩
    have hwritten : written engine w.files model data none =
        (engine.read model (givenPath data)).written s := by
      rw [written, start, hpath]
      show (match emptied w.files path with
        | .ok s => (engine.read model (givenPath data)).written s
        | .error _ => []) = _
      rw [hs]
    obtain ⟨_, -, -, -, hconfined, -⟩ := emptied_confined hs
    have hrun := run_created hopened hs (engine.read model (givenPath data))
    have hleaf' := hrun.kept place w.files.contents.next (Files.lookup_create hleaf)
    have hremove :=
      Files.remove_of_landing ((Files.landing_eq_ok (hcreated.tree.trans hrun.tree)).2 hlanding)
      (by rw [hrun.tree.branches]; exact hbranch) hleaf'
    rw [load_files_of_opened hopen hstart (hconfined.exists? (isFile_of_ready hready)), hwritten]
    simp only [Option.isNone_none, if_true, hremove]
    exact Files.confined_without hleaf hrun

/-- **A given output file takes what the engine leaves there**, if it can be opened. -/
theorem load_with_output (engine : Engine) (r : Ref Model)
    (hready : ¬Unready w.files model data (some path)) :
    (∀ s, emptied w.files path = .ok s →
      ((load engine r model data (some path)).after w).files =
        ((engine.read model (givenPath data)).run s).2.files) ∧
    ∀ fault, emptied w.files path = .error fault →
      ((load engine r model data (some path)).after w).files = w.files := by
  obtain ⟨hunready, -⟩ | ⟨-, hcheck⟩ := check_run model data (some path) w
  · exact absurd hunready hready
  have hopen : (do check model data (some path); openOutput (some path) : Action String).run w =
      (.ok path, w) := by
    rw [Action.run_bind_of_ok _ hcheck]
    rfl
  refine ⟨fun s hs => ?_, fun fault hfault => ?_⟩
  · obtain ⟨_, -, -, -, hconfined, -⟩ := emptied_confined hs
    exact load_files_of_opened hopen hs (hconfined.exists? (isFile_of_ready hready))
  · have hread : (readProblemTo engine model data path).run w = (.error fault, w) :=
      Action.run_bind_of_error _ (openFile_run_of_error (emptied_eq_error.1 hfault))
    rw [load_eq, Action.after, Action.run_bind_of_ok _ hopen,
      Action.run_bind_of_ok _ (by rw [Action.run_attempt, hread])]
    rfl

/-- What a load spares, by the identity of files: a file that neither the path of the output names
nor the engine writes of its own accord keeps its content. -/
structure Spares (engine : Engine) (model : String) (data output : Option String)
    (files files' : Files) : Prop where
  tree : SameTree files files'
  /-- No file loses a name. -/
  names : ∀ path file, files.file? path = some file → files'.file? path = some file
  contents : ∀ path file, files.file? path = some file →
    (∀ o, output = some o → files.file? o ≠ some file) →
    file ∉ written engine files model data output → files'.content file = files.content file
  /-- A new name is that of the output file, or of a file that the engine writes. -/
  created : ∀ path file, files'.file? path = some file → files.file? path = some file ∨
    file ∈ written engine files model data output ∨
      ∃ o, output = some o ∧ files'.file? o = some file

theorem spares_refl (engine : Engine) (model : String) (data output : Option String)
    (files : Files) : Spares engine model data output files files :=
  ⟨.refl files, fun _ _ h => h, fun _ _ _ _ _ => rfl, fun _ _ => .inl⟩

/-- **A load spares all files but its output file and those that the engine writes.** -/
theorem load_spares (engine : Engine) (r : Ref Model) (model : String)
    (data output : Option String) (w : Workspace) :
    Spares engine model data output w.files ((load engine r model data output).after w).files := by
  cases output with
  | none =>
    have hconfined := load_without_output engine r model data w
    exact ⟨hconfined.tree, fun _ _ => hconfined.file?,
      fun _ _ hfile _ => hconfined.content (Files.isSome_of_file? hfile),
      fun _ _ hfile => (hconfined.file?_or hfile).imp_right .inl⟩
  | some o =>
    by_cases hready : Unready w.files model data (some o)
    · obtain ⟨fault, hrun⟩ := load_of_unready engine r hready
      rw [Action.after, hrun]
      exact spares_refl _ _ _ _ _
    obtain ⟨hread, hrefused⟩ := load_with_output engine r hready
    cases hstart : emptied w.files o with
    | error fault =>
      rw [hrefused fault hstart]
      exact spares_refl _ _ _ _ _
    | ok s =>
      obtain ⟨target, houtput, htarget, -, hempty, hother⟩ := emptied_confined hstart
      have hwritten : written engine w.files model data (some o) =
          (engine.read model (givenPath data)).written s := by
        rw [written, start, hstart]
      have hrun := Process.run_confined (engine.read model (givenPath data)) s
      have hconfined : Confined (target :: written engine w.files model data (some o))
          (target :: written engine w.files model data (some o)) w.files
          ((engine.read model (givenPath data)).run s).2.files := by
        rw [System.target, houtput] at hrun
        rw [hwritten]
        exact (hempty.mono (List.cons_subset_cons _ (List.nil_subset _))
          (List.cons_subset_cons _ (List.nil_subset _))).trans
            (hrun.mono (List.subset_cons_self _ _) (List.Subset.refl _))
      rw [hread s hstart]
      refine ⟨hconfined.tree, fun _ _ => hconfined.file?, ?_, ?_⟩
      · intro path file hfile hgiven hown
        have hlive := Files.isSome_of_file? hfile
        refine hconfined.content hlive ?_
        rw [List.mem_cons, not_or]
        exact ⟨hother file hlive (hgiven o rfl), hown⟩
      · intro path file hfile
        rcases hconfined.file?_or hfile with hfile | hnamed
        · exact .inl hfile
        · rcases List.mem_cons.1 hnamed with rfl | hown
          · exact .inr (.inr ⟨o, rfl, hrun.file? htarget⟩)
          · exact .inr (.inl hown)

/-! ### Models without redirected prints -/

/-- The engine starts beside the files that are no output. -/
theorem start_confined {s : System} (h : start files output = .ok s)
    (hfile : files.file? path = some file)
    (houtput : ∀ o, output = some o → files.file? o ≠ some file) :
    file ∉ s.target ∧ Confined s.target s.target files s.files := by
  have hemptied : ∃ o, emptied files o = .ok s ∧ files.file? o ≠ some file := by
    cases output with
    | some o => exact ⟨o, h, houtput o rfl⟩
    | none =>
      rw [start] at h
      cases hpath : temporaryPath files with
      | error fault =>
        rw [hpath] at h
        cases h
      | ok o =>
        rw [hpath] at h
        refine ⟨o, h, ?_⟩
        -- a temporary file has a free path
        obtain ⟨place, hlanding, hbranch, hleaf⟩ :=
          Files.isFree_iff.1 (isFree_of_temporaryPath hpath)
        rw [Files.file?, Files.landing_through hbranch hlanding]
        simp [hleaf]
  obtain ⟨o, hstart, ho⟩ := hemptied
  obtain ⟨target, htarget, -, -, hconfined, hother⟩ := emptied_confined hstart
  have hs : s.target = [target] := by
    rw [System.target, htarget]
    rfl
  rw [hs, List.mem_singleton]
  exact ⟨hother file (Files.isSome_of_file? hfile) ho, hconfined⟩

/-- **The standard engine writes no files of its own accord for a model without redirected
prints.** -/
theorem written_standard (hmodel : files.file? model = some file)
    (houtput : ∀ o, output = some o → files.file? o ≠ some file)
    (h : ¬MathProg.Reading.RedirectsIn (givenPath data).isSome
      (Text.decode (files.content file))) :
    written Engine.standard files model data output = [] := by
  rw [written]
  cases hstart : start files output with
  | error fault => rfl
  | ok s =>
    obtain ⟨hother, hconfined⟩ := start_confined hstart hmodel houtput
    have hsaid : Confined s.target s.target files (s.say (MathProg.Reading.heading model)).files :=
      hconfined.trans ((s.say_confined _).mono (List.nil_subset _) (List.Subset.refl _))
    refine MathProg.Reading.read_written fun bytes hbytes => ?_
    rw [Files.read_of_file? (hsaid.file? hmodel),
      hsaid.content (Files.isSome_of_file? hmodel) hother] at hbytes
    cases hbytes
    exact h

/-- **A model without redirected prints is loaded without a change of any file but the output.** -/
theorem load_standard (r : Ref Model) (hmodel : w.files.file? model = some file)
    (houtput : ∀ o, output = some o → w.files.file? o ≠ some file)
    (h : ¬MathProg.Reading.RedirectsIn (givenPath data).isSome
      (Text.decode (w.files.content file)))
    {other : Ref ByteArray} (hother : w.files.file? path = some other)
    (hgiven : ∀ o, output = some o → w.files.file? o ≠ some other) :
    ((load Engine.standard r model data output).after w).files.content other =
      w.files.content other := by
  refine (load_spares Engine.standard r model data output w).contents path other hother hgiven ?_
  rw [written_standard hmodel houtput h]
  exact List.not_mem_nil

/-! ### What becomes of files -/

end Loading

end Optimization
