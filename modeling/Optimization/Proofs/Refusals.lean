import Optimization.Loading
import Optimization.Proofs.Reconstructing

/-!
# What a refused load leaves behind

Reading a model file changes files and the journal only. What a refused load does to the model is
therefore what the addition of the problem does to it, if there is one.

* `Filing` : actions that change files and the journal only;
* `Reads` : a load gets as far as reading a problem;
* `whole_unless_repeated` : a refused load or reconstruction leaves the model unchanged, unless the
  columns of the problem repeat a name.
-/

namespace Optimization.Loading

open Reconstruction

variable {α β : Type}

/-! ### Files -/

/-- An action that changes files and the journal only, whatever comes out. -/
def Filing (x : Action α) : Prop := ∀ w, ∃ files journal, x.after w = { w with files, journal }

namespace Filing

theorem pure (a : α) : Filing (Pure.pure a) := fun w => ⟨w.files, w.journal, rfl⟩

theorem throw (fault : Fault) : Filing (MonadExcept.throw fault : Action α) :=
  fun w => ⟨w.files, w.journal, rfl⟩

theorem of (x : Except Fault α) : Filing (Action.of x) := fun w => ⟨w.files, w.journal, rfl⟩

theorem get : Filing (MonadState.get : Action Workspace) := fun w => ⟨w.files, w.journal, rfl⟩

theorem setFiles (files : Files) : Filing (Loading.setFiles files) :=
  fun w => ⟨files, w.journal, rfl⟩

theorem note (severity : Severity) (origin : Origin) (text : String) :
    Filing (Action.note severity origin text) := fun w => ⟨w.files, _, rfl⟩

theorem bind {x : Action α} {f : α → Action β} (hx : Filing x) (hf : ∀ a, Filing (f a)) :
    Filing (x >>= f) := by
  intro w
  obtain ⟨files, journal, hw⟩ := hx w
  unfold Action.after at hw ⊢
  rw [Action.run_bind]
  rcases hrun : x.run w with ⟨fault | a, w'⟩
  · rw [hrun] at hw
    exact ⟨files, journal, hw⟩
  · rw [hrun] at hw
    cases hw
    exact hf a _

theorem ite {c : Prop} [Decidable c] {x y : Action α} (hx : Filing x) (hy : Filing y) :
    Filing (if c then x else y) := by
  split
  · exact hx
  · exact hy

end Filing

theorem openFile_filing (path : String) : Filing (openFile path) :=
  .bind .get fun _ => .bind (.of _) fun _ => .bind (.setFiles _) fun _ => .pure _

theorem dataFile_filing (w : Workspace) (data : Option String) {x : Action Unit} (hx : Filing x) :
    Filing (match data with
      | some d =>
        if w.files.isFile d then x else (throw (.noDataFile d) : Action Unit) >>= fun _ => x
      | _ => x) := by
  cases data with
  | none => exact hx
  | some d => exact .ite hx (.bind (.throw _) fun _ => hx)

theorem check_filing (model : String) (data output : Option String) :
    Filing (check model data output) := by
  unfold check
  refine .bind .get fun w => ?_
  have hlast : Filing (if output == some "" then throw .emptyOutputName else pure () :
      Action Unit) := .ite (.throw _) (.pure _)
  have hrest := dataFile_filing w (givenPath data) hlast
  exact .ite hrest (.bind (.throw _) fun _ => hrest)

theorem openOutput_filing (output : Option String) : Filing (openOutput output) := by
  unfold openOutput
  cases output with
  | some path => exact .pure path
  | none => exact .bind .get fun _ => .bind (.of _) fun _ => .bind (openFile_filing _) fun _ => .pure _

theorem removeNoting_filing (path : String) : Filing (removeNoting path) := by
  refine .bind .get fun w => ?_
  split
  · exact .setFiles _
  · exact .note _ _ _

theorem readOutput_filing (path : String) (remove : Bool) : Filing (readOutput path remove) :=
  .bind .get fun _ => .ite (.bind (removeNoting_filing path) fun _ => .pure _) (.pure _)

/-- Reading the output is never refused. -/
theorem readOutput_ok (path : String) (remove : Bool) (w : Workspace) :
    ∃ text files journal, (readOutput path remove).run w =
      (.ok text, { w with files, journal }) := by
  have hremove : ∃ u, ((removeNoting path).run w).1 = .ok u := by
    unfold removeNoting
    rw [Action.run_bind_of_ok _ (Action.run_get w)]
    cases w.files.remove path <;> exact ⟨_, rfl⟩
  obtain ⟨u, hu⟩ := hremove
  have hok : ∃ text, ((readOutput path remove).run w).1 = .ok text := by
    unfold readOutput
    rw [Action.run_bind_of_ok _ (Action.run_get w)]
    cases remove with
    | false => exact ⟨_, rfl⟩
    | true =>
      simp only [if_true]
      rw [Action.run_bind_of_ok _ (Prod.ext hu rfl)]
      exact ⟨_, rfl⟩
  obtain ⟨text, htext⟩ := hok
  obtain ⟨files, journal, hafter⟩ := readOutput_filing path remove w
  exact ⟨text, files, journal, Prod.ext htext hafter⟩

/-- An engine reads a problem, which is kept in a new cell, or it reads none or is never asked. -/
theorem readModel_run (engine : Engine) (model : String) (data : Option String)
    (output : Option Stream) (w : Workspace) :
    ∃ files journal, (∃ fault, (readModel engine model data output).run w =
        (.error fault, { w with files, journal })) ∨
      (readModel engine model data output).run w = (.ok none, { w with files, journal }) ∨
      ∃ q, (readModel engine model data output).run w =
        (.ok (some w.problems.next), { w with
          files, journal, problems := w.problems.push (.live q) }) := by
  rw [readModel, Action.run_bind_of_ok _ (Action.run_get w)]
  cases hexists : w.files.exists? model with
  | false =>
    refine ⟨w.files, w.journal, .inl ⟨.noSourceFile model, ?_⟩⟩
    simp only [hexists, Bool.false_eq_true, if_false]
    rfl
  | true =>
    simp only [hexists, if_true]
    obtain ⟨problem?, s⟩ := (engine.read model data).run ⟨w.files, output⟩
    refine ⟨s.files, w.journal, .inr ?_⟩
    cases problem? with
    | none => exact .inl rfl
    | some q => exact .inr ⟨q, rfl⟩

theorem readProblemTo_run (engine : Engine) (model : String) (data : Option String)
    (output : String) (w : Workspace) :
    ∃ files journal, (∃ fault, (readProblemTo engine model data output).run w =
        (.error fault, { w with files, journal })) ∨
      (readProblemTo engine model data output).run w = (.ok none, { w with files, journal }) ∨
      ∃ q, (readProblemTo engine model data output).run w =
        (.ok (some w.problems.next), { w with
          files, journal, problems := w.problems.push (.live q) }) := by
  obtain ⟨files, journal, hafter⟩ := openFile_filing output w
  rw [readProblemTo]
  rcases hopen : (openFile output).run w with ⟨fault | file, v⟩
  all_goals
    rw [Action.after, hopen] at hafter
    cases hafter
  · exact ⟨files, journal, .inl ⟨fault, Action.run_bind_of_error _ hopen⟩⟩
  · rw [Action.run_bind_of_ok _ hopen]
    exact readModel_run engine model (givenPath data) (some ⟨file, 0⟩)
      { w with files := files.setContent file ByteArray.empty, journal }

/-! ### Loads -/

/-- A load gets as far as reading a problem. -/
def Reads (engine : Engine) (model : String) (data output : Option String) (w : Workspace)
    (q : Problem) : Prop :=
  ∃ path v cell u, (do check model data output; openOutput output : Action String).run w =
      (.ok path, v) ∧
    (readProblemTo engine model data path).run v = (.ok (some cell), u) ∧
    u.problems.get? cell = some (.live q)

section

variable {engine : Engine} {model : String} {data output : Option String} {w v : Workspace}
  {q q' : Problem} {path : String}

/-- Where a load that reads a problem has its output file, the engine reads the problem. -/
theorem Reads.read (h : Reads engine model data output w q)
    (hstart : (do check model data output; openOutput output : Action String).run w =
      (.ok path, v)) :
    ∃ cell u, (readProblemTo engine model data path).run v = (.ok (some cell), u) ∧
      u.problems.get? cell = some (.live q) := by
  obtain ⟨path', v', cell, u, hstart', hread⟩ := h
  rw [hstart] at hstart'
  cases hstart'
  exact ⟨cell, u, hread⟩

/-- A load reads one problem only. -/
theorem Reads.unique (h : Reads engine model data output w q)
    (h' : Reads engine model data output w q') : q = q' := by
  obtain ⟨path, v, cell, u, hstart, hread, hget⟩ := h
  obtain ⟨cell', u', hread', hget'⟩ := h'.read hstart
  rw [hread] at hread'
  cases hread'
  rw [hget] at hget'
  cases hget'
  rfl

end

/-- The end of a load that was refused while the engine read: a temporary file is removed. -/
def giveUp (temporary : Bool) (path : String) (fault : Fault) : Action Unit := do
  if temporary then setFiles (← .of ((← get).files.remove path))
  throw fault

/-- The end of a load after the engine read a problem, or read none. -/
def finish (r : Ref Model) (temporary : Bool) (path : String) (problem? : Option (Ref Lifetime)) :
    Action Unit := do
  let message ← readOutput path temporary
  match problem? with
  | none => throw (.notTranslatable message)
  | some cell => Problem.within cell (reconstruct r cell)

/-- A load in three parts. -/
theorem load_eq (engine : Engine) (r : Ref Model) (model : String) (data output : Option String) :
    load engine r model data output = (do
      let path ← (do check model data output; openOutput output)
      match ← (readProblemTo engine model data path).attempt with
      | .ok problem? => finish r output.isNone path problem?
      | .error fault => giveUp output.isNone path fault) := by
  rw [bind_assoc]
  rfl

/-- Giving up is always refused. -/
theorem giveUp_run (temporary : Bool) (path : String) (fault : Fault) (w : Workspace) :
    ∃ fault' files journal, (giveUp temporary path fault).run w =
      (.error fault', { w with files, journal }) := by
  cases temporary with
  | false => exact ⟨fault, w.files, w.journal, rfl⟩
  | true =>
    simp only [giveUp, if_true]
    rw [Action.run_bind_of_ok _ (Action.run_get w)]
    cases w.files.remove path with
    | error fault' => exact ⟨fault', w.files, w.journal, rfl⟩
    | ok files => exact ⟨fault, files, w.journal, rfl⟩

/-- **A load fails without having read a problem, or it ends as the addition of the problem does.**
-/
theorem load_run (engine : Engine) (r : Ref Model) (model : String) (data output : Option String)
    (w : Workspace) :
    ((¬∃ q, Reads engine model data output w q) ∧ ∃ fault files journal,
        (load engine r model data output).run w = (.error fault, { w with files, journal })) ∨
      ∃ q files journal, Reads engine model data output w q ∧
        (load engine r model data output).run w =
          (Problem.within w.problems.next (addProblem r q)).run { w with
            files, journal, problems := w.problems.push (.live q) } := by
  rw [load_eq]
  have hstart : Filing (do check model data output; openOutput output) :=
    .bind (check_filing model data output) fun _ => openOutput_filing output
  obtain ⟨files, journal, hafter⟩ := hstart w
  rcases hrun : (do check model data output; openOutput output : Action String).run w with
    ⟨fault | path, v⟩
  · -- there is no output file, and the engine is not asked
    rw [Action.after, hrun] at hafter
    cases hafter
    refine .inl ⟨?_, fault, files, journal, Action.run_bind_of_error _ hrun⟩
    rintro ⟨q, path, v, cell, u, h, -⟩
    rw [hrun] at h
    cases h
  · rw [Action.after, hrun] at hafter
    cases hafter
    rw [Action.run_bind_of_ok _ hrun]
    obtain ⟨files', journal', ⟨fault, hread⟩ | hread | ⟨q, hread⟩⟩ :=
      readProblemTo_run engine model data path { w with files, journal }
    · left
      refine ⟨?_, ?_⟩
      · rintro ⟨q, h⟩
        obtain ⟨cell, u, h, -⟩ := h.read hrun
        rw [hread] at h
        cases h
      · rw [Action.run_bind_of_ok _ (by rw [Action.run_attempt, hread])]
        exact giveUp_run _ _ _ _
    · left
      refine ⟨?_, ?_⟩
      · rintro ⟨q, h⟩
        obtain ⟨cell, u, h, -⟩ := h.read hrun
        rw [hread] at h
        cases h
      · rw [Action.run_bind_of_ok _ (by rw [Action.run_attempt, hread])]
        obtain ⟨text, files'', journal'', houtput⟩ := readOutput_ok path output.isNone
          { w with files := files', journal := journal' }
        exact ⟨.notTranslatable text, files'', journal'', Action.run_bind_of_ok _ houtput⟩
    · right
      obtain ⟨text, files'', journal'', houtput⟩ := readOutput_ok path output.isNone
        { w with
          files := files', journal := journal', problems := w.problems.push (.live q) }
      refine ⟨q, files'', journal'', ⟨path, _, _, _, hrun, hread, Store.get?_push_next _ _⟩, ?_⟩
      rw [Action.run_bind_of_ok _ (by rw [Action.run_attempt, hread])]
      show (finish r output.isNone path (some w.problems.next)).run _ = _
      rw [finish, Action.run_bind_of_ok _ houtput]
      have hlive := Problem.live_run (w := { w with
        files := files'', journal := journal'', problems := w.problems.push (.live q) })
        (Store.get?_push_next w.problems (Lifetime.live q))
      show (Problem.within w.problems.next (reconstruct r w.problems.next)).run _ = _
      rw [Problem.within, Action.run_ensuring, reconstruct, Action.run_bind_of_ok _ hlive]
      rfl

/-! ### The model -/

theorem reconstruct_whole {direct : Bool} {vs : List Variable} {w : Workspace} {r : Ref Model}
    {m : Model} (hbuilt : Modeling.Built direct w vs) (hm : w.models.get? r = some m)
    (cell : Ref Lifetime) :
    WholeUnlessRepeated (reconstruct r cell)
      (fun p => w.problems.get? cell = some (.live p)) r m w := by
  by_cases hlive : ∃ p, w.problems.get? cell = some (.live p)
  · obtain ⟨p, hp⟩ := hlive
    have hrun : (reconstruct r cell).run w = (addProblem r p).run w := by
      rw [reconstruct, Action.run_bind_of_ok _ (Problem.live_run hp)]
    have hwhole := addProblem_whole hbuilt hm p
    refine ⟨fun q hq => ?_, fun h => ?_⟩
    · rw [hp] at hq
      cases hq
      rw [hrun]
      exact hwhole.torn p rfl
    · rw [hrun]
      refine hwhole.whole ?_
      rintro q rfl
      exact h q hp
  · refine ⟨fun q hq => absurd ⟨q, hq⟩ hlive, fun _ fault w' h => ?_⟩
    -- there is no problem, so that nothing happens
    rw [reconstruct, Action.run_bind_of_error _ (Problem.live_run_of_not_live hlive)] at h
    cases h
    exact .refl r w

theorem release_parts (cell : Ref Lifetime) (w : Workspace) :
    (Problem.release cell w).models = w.models ∧
      (Problem.release cell w).constraints = w.constraints ∧
      (Problem.release cell w).intervals = w.intervals := by
  unfold Problem.release
  split <;> exact ⟨rfl, rfl, rfl⟩

theorem load_whole {direct : Bool} {vs : List Variable} {w : Workspace} {r : Ref Model}
    {m : Model} (hbuilt : Modeling.Built direct w vs) (hm : w.models.get? r = some m)
    (engine : Engine) (model : String) (data output : Option String) :
    WholeUnlessRepeated (load engine r model data output) (Reads engine model data output w) r m
      w := by
  obtain ⟨hnone, fault, files, journal, hrun⟩ | ⟨q, files, journal, hq, hrun⟩ :=
    load_run engine r model data output w
  · refine ⟨fun q hq => absurd ⟨q, hq⟩ hnone, fun _ fault w' h => ?_⟩
    rw [hrun] at h
    cases h
    exact ⟨rfl, fun _ _ => rfl, fun _ _ => rfl⟩
  · have hother : Modeling.Built direct { w with
        files, journal, problems := w.problems.push (.live q) } vs :=
      .step hbuilt (.other rfl rfl rfl)
    have hwhole := addProblem_whole hother hm q
    refine ⟨fun q' hq' hrepeats => ?_, fun h fault w' hload => ?_⟩
    · obtain rfl := hq.unique hq'
      obtain ⟨fault, u, m', hadd, hget, hne, htorn⟩ := hwhole.torn q rfl hrepeats
      refine ⟨fault, Problem.release w.problems.next u, m', ?_, ?_, hne, htorn⟩
      · rw [hrun, Problem.within, Action.run_ensuring, hadd]
      · rw [(release_parts _ u).1, hget]
    · rw [hrun] at hload
      obtain ⟨u, hadd, rfl⟩ := Action.exists_run_of_ensuring hload
      have hsame := hwhole.whole (fun q' hq' => hq' ▸ h q hq) fault u hadd
      obtain ⟨hmodels, hconstraints, hintervals⟩ := release_parts w.problems.next u
      exact ⟨hmodels ▸ hsame.model, hconstraints ▸ hsame.constraints,
        hintervals ▸ hsame.intervals⟩

/-- **A refused load or reconstruction leaves the model as it was, unless the columns of the problem
repeat a name.** If they do, while all else about them is in order, the model is left torn. -/
theorem whole_unless_repeated {direct : Bool} {vs : List Variable} {w : Workspace} {r : Ref Model}
    {m : Model} (hbuilt : Modeling.Built direct w vs) (hm : w.models.get? r = some m) :
    (∀ cell, WholeUnlessRepeated (reconstruct r cell)
      (fun p => w.problems.get? cell = some (.live p)) r m w) ∧
    ∀ engine model data output, WholeUnlessRepeated (load engine r model data output)
      (Reads engine model data output w) r m w :=
  ⟨reconstruct_whole hbuilt hm, load_whole hbuilt hm⟩

/-- A problem with two columns of one name. -/
def twins : Problem := { columns := [{ name := some "x" }, { name := some "x" }] }

/-- The problem beside a model without content. -/
def twinsWorkspace : Workspace :=
  (Problem.adopt twins).after ((Modeling.newModel (.empty (.text "m"))).after {})

theorem twinsWorkspace_built : Modeling.Built false twinsWorkspace [] := by
  have hmodel : Modeling.Built false ((Modeling.newModel (.empty (.text "m"))).after {}) [] :=
    .step .start (.newModel _)
  exact .step hmodel (.other rfl rfl rfl)

/-- The refused problem has changed the model. -/
theorem twins_change_model : ∃ fault w',
    (reconstruct ⟨0⟩ ⟨0⟩).run twinsWorkspace = (.error fault, w') ∧
      w'.models.get? ⟨0⟩ ≠ twinsWorkspace.models.get? ⟨0⟩ := by
  refine ⟨.duplicateName "x", _, rfl, fun h => ?_⟩
  have hcount := congrArg (Option.map fun m => m.decisions.length) h
  cases hcount

/-- The variable of the first column stays in the model. -/
theorem twins_torn : ∃ m, twinsWorkspace.models.get? ⟨0⟩ = some m ∧ Repeats m twins ∧
    ∃ fault w' m', (reconstruct ⟨0⟩ ⟨0⟩).run twinsWorkspace = (.error fault, w') ∧
      w'.models.get? ⟨0⟩ = some m' ∧ m' ≠ m ∧ Torn m twins m' := by
  have hrepeats : Repeats (.empty (.text "m")) twins := by
    refine ⟨?_, fun _ _ => List.not_mem_nil, by decide⟩
    intro request hrequest
    obtain rfl | rfl : request = _ ∨ request = _ := by simpa [requests, twins] using hrequest
    · exact ⟨_, rfl⟩
    · exact ⟨_, rfl⟩
  exact ⟨_, rfl, hrepeats, ((whole_unless_repeated twinsWorkspace_built rfl).1 ⟨0⟩).torn twins rfl
    hrepeats⟩

end Optimization.Loading
