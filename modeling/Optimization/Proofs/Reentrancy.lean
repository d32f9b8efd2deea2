import Optimization.Proofs.Building
import Optimization.Proofs.Interference

/-!
# Solves within solves

A sink may call the solver that it listens to, and other ones, while a solve is at work. Solvers
take one solve at a time: a busy one refuses whatever it is asked for, and is idle again in the end.

* `Reentrant` : what a sink may do with a line;
* `Reentrant.respects` : it leaves busy solvers and their problems alone;
* `CallsWithin`, `Quiet` : where a sink is called, and that it does not interfere there;
* `OneAtATime`, `solve_one_at_a_time` : one solve at a time, whatever the sink does.
-/

namespace Optimization.Solver

/-! ### What a sink may do -/

/-- One workspace may come after another one: solvers stay, and busy ones are busy still. -/
structure Later (w v : Workspace) : Prop where
  there : ∀ s, (w.solvers.get? s).isSome → (v.solvers.get? s).isSome
  busy : ∀ s, (w.solvers.get s).busy = true → (v.solvers.get s).busy = true

/-- What can be done with solvers from outside: solve with any of them, ask it to stop or for other
parameters, make another one, look at everything, change anything but solvers and problems, raise,
and go on after a refusal. The sink of a solve within may do the same, as long as the solver is
busy; with a solver that is busy already no sink is ever called. -/
inductive Reentrant (engine : Engine) : Workspace → {α : Type} → Action α → Prop
  | done {w : Workspace} {α : Type} (x : Except Fault α) : Reentrant engine w (.of x)
  | bind {w : Workspace} {α β : Type} {x : Action α} {f : α → Action β}
    (hx : Reentrant engine w x)
    (hf : ∀ a w', x.run w = (.ok a, w') → Reentrant engine w' (f a)) : Reentrant engine w (x >>= f)
  | attempt {w : Workspace} {α : Type} {x : Action α} (hx : Reentrant engine w x) :
    Reentrant engine w x.attempt
  | look {w : Workspace} : Reentrant engine w (get : Action Workspace)
  | edit {w : Workspace} (f : Workspace → Workspace) (hs : (f w).solvers = w.solvers)
    (hp : (f w).problems = w.problems) (hc : (f w).calls = w.calls) :
    Reentrant engine w (modify f : Action Unit)
  | create {w : Workspace} (parameters : Parameters) : Reentrant engine w (create parameters)
  | abort {w : Workspace} (s : Ref Solver) : Reentrant engine w (abort s)
  | setParameters {w : Workspace} (s : Ref Solver) : Reentrant engine w (setParameters s)
  | solve {w : Workspace} {sink : Option Sink} {s : Ref Solver} {model : Option (Ref Model)}
    {values : Overrides} (there : (w.solvers.get? s).isSome)
    (lines : (w.solvers.get s).busy = false → ∀ f, sink = some f → ∀ line v, Later w v →
      (v.solvers.get s).busy = true → Reentrant engine v (f line)) :
    Reentrant engine w (solve engine sink s model values)

/-- A sink that does what can be done with solvers from outside. -/
def ReentrantSink (engine : Engine) (s : Ref Solver) (w : Workspace) (f : Sink) : Prop :=
  ∀ line v, Later w v → (v.solvers.get s).busy = true → Reentrant engine v (f line)

section

variable {engine : Engine} {sink : Option Sink} {s : Ref Solver} {r : Ref Model}
  {w v : Workspace} {f : Sink} {values : Overrides} {σ : Solver}

theorem Working.later (h : Working s w v) : Later w v where
  there s' hs' := by
    obtain ⟨σ', hσ'⟩ := Option.isSome_iff_exists.1 hs'
    by_cases he : s' = s
    · subst he
      obtain ⟨σ, b, -, hb⟩ := h.solver
      rw [hb]
      rfl
    · obtain ⟨b, hb, -⟩ := h.others s' he σ' hσ'
      rw [hb]
      rfl
  busy s' hs' := by
    by_cases he : s' = s
    · subst he
      exact h.busy
    · obtain ⟨b, hb, -⟩ := h.others s' he _ (get?_of_busy hs')
      rw [Store.get_of_get? hb]
      exact hs'

theorem respects_create (parameters : Parameters) (w : Workspace) :
    Respects w ((create parameters).after w) where
  solvers s σ hσ := by
    refine ⟨σ.mixedInteger, ?_, fun _ => rfl⟩
    exact (Store.get?_push _ (hσ ▸ rfl)).trans hσ
  problems := .of_eq rfl rfl

theorem abort_after (s : Ref Solver) (w : Workspace) : (abort s).after w = w := by
  unfold Action.after abort
  rw [Action.run_bind_of_ok _ (state_run s w)]
  split_ifs <;> rfl

theorem setParameters_after (s : Ref Solver) (w : Workspace) : (setParameters s).after w = w := by
  unfold Action.after setParameters
  rw [Action.run_bind_of_ok _ (state_run s w)]
  split_ifs <;> rfl

theorem stable_true (r : Ref Model) : Stable r fun _ => True :=
  ⟨fun _ _ _ _ => trivial, fun _ _ _ => trivial⟩

/-- A sink that leaves solvers and problems alone while the solver is busy matches itself. -/
theorem matching_self (h : ∀ f, sink = some f → ∀ line v, Later w v →
      (v.solvers.get s).busy = true → Respects v ((f line).after v)) :
    Matching s w (fun _ => True) sink sink := by
  intro line v hworking _
  refine ⟨rfl, ?_, trivial⟩
  cases hf : sink with
  | none => exact .refl _
  | some f => exact h f hf line v hworking.later hworking.busy

/-- **Nothing that a sink may do gets in the way of a solve.** -/
theorem Reentrant.respects {α : Type} {x : Action α} (h : Reentrant engine w x) :
    Respects w (x.after w) := by
  induction h with
  | done x => exact .refl _
  | @bind w α β x f hx hf ihx ihf =>
    unfold Action.after at ihx ⊢
    rcases hrun : x.run w with ⟨fault | a, w'⟩ <;> rw [hrun] at ihx
    · rw [Action.run_bind_of_error _ hrun]
      exact ihx
    · rw [Action.run_bind_of_ok _ hrun]
      exact ihx.trans (ihf a w' hrun)
  | attempt hx ih => exact ih
  | look => exact .refl _
  | edit f hs hp hc => exact .of_eq hs hp hc
  | create parameters => exact respects_create parameters _
  | abort s =>
    rw [abort_after]
    exact .refl _
  | setParameters s =>
    rw [setParameters_after]
    exact .refl _
  | @solve w sink s model values there lines ih =>
    cases model with
    | none => exact .refl _
    | some r =>
      obtain ⟨σ, hσ⟩ := Option.isSome_iff_exists.1 there
      cases hbusy : (w.solvers.get s).busy with
      | true =>
        rw [Action.after, solve_run_of_busy engine sink values hbusy]
        exact .refl _
      | false =>
        have hidle : σ.busy = false := by rw [← hbusy, Store.get_of_get? hσ]
        exact (solve_matched engine hσ hidle (stable_true r) trivial (matching_self (ih hbusy))
          values).2

/-! ### Where a sink is called -/

/-- In a run with the sink `f`, this is only called with lines and workspaces of `P`: whatever it
would do elsewhere, the run would be the same. -/
def CallsWithin {α : Type} (x : Sink → Action α) (f : Sink) (w : Workspace)
    (P : String → Workspace → Prop) : Prop :=
  ∀ g : Sink, (∀ line v, P line v → (g line).run v = (f line).run v) → (x g).run w = (x f).run w

theorem CallsWithin.mono {α : Type} {x : Sink → Action α} {P Q : String → Workspace → Prop}
    (h : CallsWithin x f w P) (hPQ : ∀ line v, P line v → Q line v) : CallsWithin x f w Q :=
  fun g hg => h g fun line v hP => hg line v (hPQ line v hP)

/-- The sink accepts a line and leaves the model as it is. -/
structure Quiet (r : Ref Model) (f : Sink) (line : String) (v : Workspace) : Prop where
  accepted : ((f line).run v).1 = .ok ()
  same : SameModel r v ((f line).after v)

/-- A sink is only called while the solver is at work, and what it keeps true holds then. -/
theorem callsWithin_working {K : Workspace → Prop} (engine : Engine) (values : Overrides)
    (hs : w.solvers.get? s = some σ) (hidle : σ.busy = false) (hf : ReentrantSink engine s w f)
    (hK : Stable r K) (hw : K w)
    (hkept : ∀ line v, Working s w v → K v → K ((f line).after v)) :
    CallsWithin (fun f => solve engine (some f) s (some r) values) f w
      fun _ v => Working s w v ∧ K v := by
  intro g hg
  have hmatch : Matching s w K (some f) (some g) := by
    intro line v hworking hknown
    exact ⟨(hg line v ⟨hworking, hknown⟩).symm, (hf line v hworking.later hworking.busy).respects,
      hkept line v hworking hknown⟩
  exact (solve_matched engine hs hidle hK hw hmatch values).1.symm

/-- A model whose variables have cells of their own is the same between all steps of its solve. -/
theorem stable_sameModel (hcells : ((w.models.get r).decisions.map (·.cell)).Nodup) :
    Stable r (SameModel r w) where
  same h hm hc hi := by
    refine h.trans ⟨by rw [hm], fun c _ => by rw [hc], fun v _ => by rw [hi]⟩
  translate {v} values q h := by
    obtain ⟨journal, hafter⟩ := (Translation.translate_ends values
      (h.get.symm ▸ hcells : ((v.models.get r).decisions.map (·.cell)).Nodup) v q).after
    refine h.trans ?_
    rw [Action.after, hafter]
    exact ⟨rfl, fun _ _ => rfl, fun _ _ => rfl⟩

/-! ### Quiet sinks -/

/-- Models with a variable twice are refused when they are translated, and in the same way. -/
theorem translate_refused {m : Model} {q : Problem} (hdup : ¬m.decisions.Nodup)
    (hq : q.columns = []) (values : Overrides) (v : Workspace) :
    ∃ fault w', Translation.computed m values v.constraints v.intervals q = .error fault ∧
      (Translation.translate m values q).run v = (.error fault, w') := by
  obtain ⟨journal, hrun⟩ := Overrides.during_run values m.decisions
    (fun s => Translation.columns m s q) v
  cases hcolumns : Overrides.underway values m.decisions v.intervals
    fun s => Translation.columns m s q with
  | error fault =>
    rw [hcolumns] at hrun
    refine ⟨fault, _, ?_, Action.run_bind_of_error _ hrun⟩
    rw [Translation.computed, hcolumns]
    rfl
  | ok pm =>
    unfold Overrides.underway at hcolumns
    split at hcolumns
    · cases hcolumns
    · obtain ⟨-, -, -, -, -, hnodup⟩ := Translation.columns_eq_ok hq hcolumns
      exact absurd hnodup hdup

theorem columns_of_named {name : Scalar} {q : Problem} (h : named name = .ok q) :
    q.columns = [] := by
  unfold named at h
  split_ifs at h
  · obtain ⟨text, -, h⟩ := bind_eq_ok.1 h
    cases h
    rfl
  · cases h
    rfl

/-- A solve of a model with a variable twice has its answer, too. -/
theorem solveTaken_repeated {p : Ref Lifetime} {w' : Workspace} (engine : Engine)
    (values : Overrides) (hdup : ¬(w.models.get r).decisions.Nodup)
    (hsink : ∀ f, sink = some f → Discreet s r p f) (hbusy : σ.busy = true)
    (h : Held sink s r w σ p w')
    (hp : ((write sink " - Creating GLPK model").after
      (begun s (w.models.get r) w')).problems.next = p) :
    (solveTaken engine sink s r values).Ends w'
      ((answer engine σ.parameters (w.models.get r) w.constraints w.intervals values).map Prod.fst)
      fun _ => True := by
  refine .step (model_run h.same) (.step (Action.run_get w') ?_)
  rw [Translation.checkModel_congr h.same.constraints]
  cases hcheck : Translation.checkModel (w.models.get r) w.constraints with
  | error fault =>
    rw [answer, hcheck]
    exact .bind_error (.of_run rfl trivial)
  | ok u =>
    refine .step rfl (.step (Action.run_modify _ _) ?_)
    have h₁ := h.change fun x => { x with mixedInteger := (w.models.get r).isMixedInteger }
    obtain ⟨w₂, hwrite, h₂⟩ := (h₁.write hsink hbusy " - Creating GLPK model").exists_run
    rw [Action.after, begun, hwrite] at hp
    refine .step hwrite (.step (model_run h₂.same) ?_)
    have hcreate := create_run (w.models.get r).name w₂
    cases hnamed : named (w.models.get r).name with
    | error fault =>
      rw [hnamed] at hcreate
      rw [answer, hcheck, hnamed]
      exact .bind_error (.of_run hcreate trivial)
    | ok q =>
      rw [hnamed, show w₂.problems.next = p from hp] at hcreate
      rw [answer_of_named hcheck hnamed]
      refine .step hcreate ?_
      have hstage := h₂.stage hp q
      obtain ⟨fault, w₃, hcomputed, htranslate⟩ := translate_refused hdup (columns_of_named hnamed)
        values { w₂ with problems := w₂.problems.push (.live q) }
      rw [Translation.computed_congr hstage.same.intervals hstage.same.constraints] at hcomputed
      have hsolve : (solveIn engine sink s r values p).run
          { w₂ with problems := w₂.problems.push (.live q) } = (.error fault, w₃) := by
        unfold solveIn
        rw [Action.run_bind_of_ok _ (model_run hstage.same), Action.run_bind_of_ok _ hstage.live,
          Action.run_bind_of_error _ htranslate]
      rw [prepare_refused hcomputed]
      exact .bind_error (.of_run (congrArg (fun x => (x.1, Problem.release p x.2)) hsolve) trivial)

/-- A solve has its answer whenever its sink leaves it alone. -/
theorem solve_outcome {direct : Bool} {made : List Variable} (engine : Engine) (values : Overrides)
    (hbuilt : Modeling.Built direct w made) (hs : w.solvers.get? s = some σ)
    (hidle : σ.busy = false) (hsink : ∀ f, sink = some f → ∀ p, Discreet s r p f) :
    ((solve engine sink s (some r) values).run w).1 =
      (answer engine σ.parameters (w.models.get r) w.constraints w.intervals values).map
        Prod.fst := by
  by_cases hnodup : (w.models.get r).decisions.Nodup
  · exact (solve_ends engine values hs hidle (hbuilt.sound.nodup_cells hnodup)
      fun f hf => hsink f hf _).outcome
  · have hidle' : (w.solvers.get s).busy = false := by rw [Store.get_of_get? hs, hidle]
    have htaken := (Held.refl sink r hs (ownProblem sink s r w)).change fun x =>
      { x with busy := true }
    rw [solve_run_of_idle engine sink values hidle']
    exact (solveTaken_repeated engine values hnodup (fun f hf => hsink f hf _) rfl htaken
      rfl).outcome

open Classical in
/-- The sink that does the same within `P`, and nothing elsewhere. -/
noncomputable def confined (P : String → Workspace → Prop) (f : Sink) : Sink := fun line v =>
  if P line v then f line v else (.ok (), v)

theorem confined_run {P : String → Workspace → Prop} {line : String} (h : P line v) :
    (confined P f line).run v = (f line).run v :=
  if_pos h

theorem confined_run_of_not {P : String → Workspace → Prop} {line : String} (h : ¬P line v) :
    (confined P f line).run v = (.ok (), v) :=
  if_neg h

/-- What can come while a solve by a solver is at work. -/
def Meanwhile (s : Ref Solver) (w : Workspace) (_ : String) (v : Workspace) : Prop :=
  Later w v ∧ (v.solvers.get s).busy = true

theorem Working.meanwhile (h : Working s w v) (line : String) : Meanwhile s w line v :=
  ⟨h.later, h.busy⟩

/-- A sink that is confined to what is quiet accepts all lines and leaves the solve alone. -/
theorem confined_ends (hf : ReentrantSink engine s w f) {line : String}
    (h : Meanwhile s w line v) :
    (confined (Quiet r f) f line).Ends v (.ok ()) fun v' => Respects v v' ∧ SameModel r v v' := by
  by_cases hquiet : Quiet r f line v
  · constructor
    · rw [confined_run hquiet]
      exact hquiet.accepted
    · rw [confined_run hquiet]
      exact ⟨(hf line v h.1 h.2).respects, hquiet.same⟩
  · exact .of_run (confined_run_of_not hquiet) ⟨.refl v, .refl r v⟩

theorem confined_discreet (hf : ReentrantSink engine s w f) (p : Ref Lifetime) :
    Discreet s r p (confined (Meanwhile s w) (confined (Quiet r f) f)) := by
  intro line v hbusy
  by_cases h : Meanwhile s w line v
  · obtain ⟨v', hrun, hrespects, hsame⟩ := (confined_ends (r := r) hf h).exists_run
    exact .of_run ((confined_run h).trans hrun) (hrespects.untouched hbusy hsame)
  · exact .of_run (confined_run_of_not h) ((Respects.refl v).untouched hbusy (.refl r v))

/-- **A sink that is quiet whenever it is called makes no difference.** -/
theorem solve_quiet {direct : Bool} {made : List Variable} (engine : Engine) (values : Overrides)
    (hbuilt : Modeling.Built direct w made) (hs : w.solvers.get? s = some σ)
    (hidle : σ.busy = false) (hf : ReentrantSink engine s w f)
    (hquiet : CallsWithin (fun f => solve engine (some f) s (some r) values) f w (Quiet r f)) :
    ((solve engine (some f) s (some r) values).run w).1 =
      ((solve engine none s (some r) values).run w).1 := by
  -- where the sink is not called it may as well do nothing
  have hconfined := hquiet (confined (Quiet r f) f) fun _ _ => confined_run
  have hmeanwhile : (solve engine (some (confined (Quiet r f) f)) s (some r) values).run w =
      (solve engine (some (confined (Meanwhile s w) (confined (Quiet r f) f))) s (some r)
        values).run w := by
    refine (solve_matched engine hs hidle (stable_true r) trivial ?_ values).1
    intro line v hworking _
    have h := hworking.meanwhile line
    exact ⟨(confined_run h).symm, (confined_ends hf h).after.1, trivial⟩
  have hdiscreet : ∀ g, some (confined (Meanwhile s w) (confined (Quiet r f) f)) = some g →
      ∀ p, Discreet s r p g := by
    rintro _ ⟨⟩
    exact confined_discreet hf
  rw [← hconfined, hmeanwhile, solve_outcome engine values hbuilt hs hidle hdiscreet,
    solve_outcome engine values hbuilt hs hidle (by simp)]

/-! ### The whole -/

/-- A solve by an idle solver is the only one by that solver while it lasts. -/
structure OneAtATime (engine : Engine) (sink : Option Sink) (s : Ref Solver) (r : Ref Model)
    (values : Overrides) (w : Workspace) : Prop where
  /-- The solver is busy whenever its sink is called. -/
  busy : ∀ f, sink = some f → CallsWithin (fun f => solve engine (some f) s (some r) values) f w
    fun _ v => (v.solvers.get s).busy = true
  /-- Nothing that a sink may do then changes the solver. -/
  untouched : ∀ {α : Type} (x : Action α) v, Reentrant engine v x →
    (v.solvers.get s).busy = true → (x.after v).solvers.get? s = v.solvers.get? s
  /-- Requests to the busy solver are refused and change nothing at all. -/
  refused : ∀ v, (v.solvers.get s).busy = true →
    (∀ sink' r' values', (solve engine sink' s (some r') values').run v = (.error .busy, v)) ∧
      (abort s).run v = (.error .abortRunning, v) ∧ (setParameters s).run v = (.error .busy, v)
  /-- However the solve ends, the solver is idle then and has its parameters. -/
  idle : ∃ σ, ((solve engine sink s (some r) values).after w).solvers.get? s = some σ ∧
    σ.busy = false ∧ σ.parameters = (w.solvers.get s).parameters
  /-- The next solve is accepted: the solver is taken again. -/
  accepted : ∀ sink' r' values', (solve engine sink' s (some r') values').run
      ((solve engine sink s (some r) values).after w) =
    ((solveTaken engine sink' s r' values').ensuring
        (change s fun x => { x with busy := false })).run
      (change s (fun x => { x with busy := true }) ((solve engine sink s (some r) values).after w))
  /-- A sink that accepts its lines and leaves the model as it is does not influence the outcome. -/
  outcome : ∀ f, sink = some f → ∀ direct made, Modeling.Built direct w made →
    CallsWithin (fun f => solve engine (some f) s (some r) values) f w (Quiet r f) →
      ((solve engine sink s (some r) values).run w).1 =
        ((solve engine none s (some r) values).run w).1

theorem abort_run_of_busy (h : (v.solvers.get s).busy = true) :
    (abort s).run v = (.error .abortRunning, v) := by
  rw [abort, Action.run_bind_of_ok _ (state_run s v), if_pos h]
  rfl

theorem setParameters_run_of_busy (h : (v.solvers.get s).busy = true) :
    (setParameters s).run v = (.error .busy, v) := by
  rw [setParameters, Action.run_bind_of_ok _ (state_run s v), if_pos h]
  rfl

/-- **A solver takes one solve at a time**, whatever its sink does with solvers. -/
theorem solve_one_at_a_time (engine : Engine) (values : Overrides)
    (hs : w.solvers.get? s = some σ) (hidle : σ.busy = false)
    (hsink : ∀ f, sink = some f → ReentrantSink engine s w f) :
    OneAtATime engine sink s r values w ∧
      Fault.busy.category = .state ∧ Fault.busy.message? = some "solver is busy" ∧
      Fault.abortRunning.category = .unsupported := by
  have hmatch := matching_self fun f hf line v hlater hbusy =>
    (hsink f hf line v hlater hbusy).respects
  have hrespects := (solve_matched engine hs hidle (stable_true r) trivial hmatch values).2
  obtain ⟨b, hafter, -⟩ := hrespects.solvers s σ hs
  refine ⟨⟨fun f hf => ?_, fun x v hx hbusy => hx.respects.busy hbusy, fun v hbusy => ?_, ?_, ?_,
    ?_⟩, rfl, rfl, rfl⟩
  · exact (callsWithin_working engine values hs hidle (hsink f hf) (stable_true r) trivial
      fun _ _ _ _ => trivial).mono fun line v h => h.1.busy
  · exact ⟨fun sink' r' values' => solve_run_of_busy engine sink' values' hbusy,
      abort_run_of_busy hbusy, setParameters_run_of_busy hbusy⟩
  · refine ⟨_, hafter, hidle, ?_⟩
    rw [Store.get_of_get? hs]
  · intro sink' r' values'
    refine solve_run_of_idle engine sink' values' ?_
    rw [Store.get_of_get? hafter]
    exact hidle
  · rintro f rfl direct made hbuilt hquiet
    exact solve_quiet engine values hbuilt hs hidle (hsink f rfl) hquiet

end

/-- The sample with two solvers. -/
def sampleWithSolvers : Workspace :=
  { Modeling.sampleWithSolver with solvers := Modeling.sampleWithSolver.solvers.push {} }

theorem sampleWithSolvers_built :
    Modeling.Built false sampleWithSolvers Modeling.sampleVariables := by
  refine .step Modeling.sampleWithSolver_built ?_
  exact .other rfl rfl rfl

/-- A sink of the first solver that asks it to solve and to stop and for other parameters, and has
the second solver solve the same model with other bounds. -/
def intruder (engine : Engine) : Sink := fun _ => do
  let _ ← (solve engine none ⟨0⟩ (some ⟨0⟩) []).attempt
  let _ ← (solve engine none ⟨1⟩ (some ⟨0⟩) [("x", .real 1.5)]).attempt
  let _ ← (abort ⟨0⟩).attempt
  let _ ← (setParameters ⟨0⟩).attempt
  pure ()

theorem intruder_reentrant (engine : Engine) :
    ReentrantSink engine ⟨0⟩ sampleWithSolvers (intruder engine) := by
  intro line v hlater hbusy
  have hfirst : (v.solvers.get? ⟨0⟩).isSome := hlater.there _ rfl
  have hsecond : (v.solvers.get? ⟨1⟩).isSome := hlater.there _ rfl
  refine .bind (.attempt (.solve hfirst fun _ f hf => nomatch hf)) fun a v₁ hrun => ?_
  rw [Action.run_attempt, solve_run_of_busy engine none [] hbusy] at hrun
  cases hrun
  refine .bind (.attempt (.solve hsecond fun _ f hf => nomatch hf)) fun a v₂ _ => ?_
  refine .bind (.attempt (.abort _)) fun a v₃ _ => ?_
  exact .bind (.attempt (.setParameters _)) fun a v₄ _ => .done (.ok ())

/-- The intruder gets its answers, and the model is as it was. -/
theorem intruder_quiet (engine : Engine) (line : String) {v : Workspace}
    (hworking : Working ⟨0⟩ sampleWithSolvers v) (hsame : SameModel ⟨0⟩ sampleWithSolvers v) :
    Quiet ⟨0⟩ (intruder engine) line v := by
  have hsound := sampleWithSolvers_built.sound
  have hcells : ((v.models.get ⟨0⟩).decisions.map (·.cell)).Nodup := by
    rw [hsame.get]
    exact hsound.nodup_cells (hsound.nodup_decisions ⟨0⟩)
  obtain ⟨b, hsecond, -⟩ := hworking.others ⟨1⟩ (by decide) {} rfl
  have hdiscreet : ∀ f, none = some f → Discreet ⟨1⟩ ⟨0⟩ (ownProblem none ⟨1⟩ ⟨0⟩ v) f := by simp
  have hsolve := solve_ends engine [("x", .real 1.5)] hsecond rfl hcells hdiscreet
  have hrun : (intruder engine line).run v = (.ok (),
      (solve engine none ⟨1⟩ (some ⟨0⟩) [("x", .real 1.5)]).after v) := by
    unfold intruder
    have hrefused := solve_run_of_busy (r := ⟨0⟩) engine none [] hworking.busy
    rw [Action.run_bind_of_ok _ (Action.run_attempt _ _),
      Action.run_bind_of_ok _ (Action.run_attempt _ _),
      Action.run_bind_of_ok _ (Action.run_attempt _ _),
      Action.run_bind_of_ok _ (Action.run_attempt _ _), hrefused]
    show (_, (setParameters ⟨0⟩).after ((abort ⟨0⟩).after _)) = _
    rw [setParameters_after, abort_after]
    rfl
  exact ⟨by rw [hrun], by rw [Action.after, hrun]; exact hsolve.after.same⟩

/-- An engine that solves the sample. -/
def sampleEngine : Engine := Modeling.constantEngine ⟨5, 3.5, [0.0, 3.0]⟩

/-- The intruder is refused by the first solver and has no influence on what it finds. -/
theorem sample_one_at_a_time :
    OneAtATime sampleEngine (some (intruder sampleEngine)) ⟨0⟩ ⟨0⟩ [] sampleWithSolvers ∧
      ((solve sampleEngine (some (intruder sampleEngine)) ⟨0⟩ (some ⟨0⟩) []).run
          sampleWithSolvers).1 =
        ((solve sampleEngine none ⟨0⟩ (some ⟨0⟩) []).run sampleWithSolvers).1 ∧
      ((solve sampleEngine none ⟨0⟩ (some ⟨0⟩) []).run sampleWithSolvers).1.isOk = true := by
  have hs : sampleWithSolvers.solvers.get? ⟨0⟩ = some {} := rfl
  have hsink : ∀ f, some (intruder sampleEngine) = some f →
      ReentrantSink sampleEngine ⟨0⟩ sampleWithSolvers f := by
    rintro _ ⟨⟩
    exact intruder_reentrant sampleEngine
  obtain ⟨h, -⟩ := solve_one_at_a_time (r := ⟨0⟩) sampleEngine [] hs rfl hsink
  refine ⟨h, h.outcome _ rfl _ _ sampleWithSolvers_built ?_, by decide +kernel⟩
  have hsound := sampleWithSolvers_built.sound
  refine (callsWithin_working sampleEngine [] hs rfl (intruder_reentrant sampleEngine)
    (stable_sameModel (hsound.nodup_cells (hsound.nodup_decisions ⟨0⟩))) (.refl _ _)
    fun line v hworking hsame => ?_).mono fun line v hv =>
      intruder_quiet sampleEngine line hv.1 hv.2
  exact hsame.trans (intruder_quiet sampleEngine line hworking hsame).same

end Optimization.Solver
