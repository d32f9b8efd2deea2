import Optimization.Proofs.Interference

/-!
# Which outcome a solution reports

A solver looks twice whether a model has integer variables: when the model is checked, before the
first line is written, and when it is translated, after that. The first answer decides which outcome
is reported, and the second one whether the search is run. Whatever receives the lines may change
the model meanwhile, but only the first line can make the two answers differ.

* `Reserved`, `Aloof` : what receives the lines leaves the solver and its problem alone, and may do
  anything else;
* `consult` says what the runs of the engine find, `runEngine_ok` that they find it here as well;
* `solve_ok` : the solution reports the outcome that the first answer selects;
* `solve_reports_last` : it is the outcome of the last run, if the first line leaves the answer as
  it was;
* `latecomer_reports_relaxation` : otherwise it may be the outcome of the relaxation.
-/

namespace Optimization

/-! ### Overrides without values -/

namespace Overrides

theorem fix_of_nil (vs : List Variable) (s : Store Interval) : fix [] vs s = ([], s, none) := by
  induction vs with
  | nil => rfl
  | cons v vs ih => simp only [fix, List.lookup_nil, ih]

theorem unknownNames_of_nil (vs : List Variable) : unknownNames [] vs = [] := by
  simp only [unknownNames, List.map_nil, List.filter_nil, List.mergeSort_nil]
  rfl

/-- Without values nothing is fixed. -/
theorem during_of_nil {α : Type} (vs : List Variable) (body : Action α) :
    during [] vs body = body := by
  funext w
  rw [during, fix_of_nil, noteUnknown, unknownNames_of_nil]
  rfl

end Overrides

namespace Solver

open Optimization.Action (Along Steady)

/-- A busy solver and the problem in a cell are as they were. -/
def Reserved (s : Ref Solver) (p : Ref Lifetime) (w v : Workspace) : Prop :=
  (w.solvers.get s).busy = true → v.solvers.get? s = w.solvers.get? s ∧
    ((w.problems.get? p).isSome → v.problems.get? p = w.problems.get? p)

instance reserved_steady (s : Ref Solver) (p : Ref Lifetime) : Steady (Reserved s p) where
  refl _ _ := ⟨rfl, fun _ => rfl⟩
  trans huv hvw hbusy := by
    obtain ⟨hsolver, hproblem⟩ := huv hbusy
    rw [← Store.get_congr hsolver] at hbusy
    obtain ⟨hsolver', hproblem'⟩ := hvw hbusy
    refine ⟨hsolver'.trans hsolver, fun hp => ?_⟩
    exact (hproblem' ((hproblem hp).symm ▸ hp)).trans (hproblem hp)

/-- What receives the lines leaves a busy solver and the problem in a cell alone. -/
abbrev Aloof (s : Ref Solver) (p : Ref Lifetime) (sink : Option Sink) : Prop :=
  Lines (Reserved s p) sink

/-- A busy solver works on a problem. -/
structure Holding (s : Ref Solver) (p : Ref Lifetime) (σ : Solver) (q : Problem) (w : Workspace) :
    Prop where
  solver : w.solvers.get? s = some σ
  busy : σ.busy = true
  problem : w.problems.get? p = some (.live q)

section

variable {engine : Engine} {sink : Option Sink} {s : Ref Solver} {r : Ref Model}
  {p : Ref Lifetime} {σ : Solver} {q : Problem} {v w : Workspace} {values : Overrides}

theorem Holding.reserved (h : Holding s p σ q w) (hv : Reserved s p w v) : Holding s p σ q v := by
  have hbusy : (w.solvers.get s).busy = true := by rw [Store.get_of_get? h.solver, h.busy]
  obtain ⟨hsolver, hproblem⟩ := hv hbusy
  have hsome : (w.problems.get? p).isSome := by
    rw [h.problem]
    rfl
  exact ⟨hsolver.trans h.solver, h.busy, (hproblem hsome).trans h.problem⟩

/-- An action that leaves solver and problem alone. -/
theorem Holding.along {α : Type} {x : Action α} {a : Except Fault α} (h : Holding s p σ q w)
    (hx : Along (Reserved s p) x) (hrun : x.run w = (a, v)) : Holding s p σ q v := by
  have hv := hx w
  rw [Action.after, hrun] at hv
  exact h.reserved hv

theorem Holding.store (h : Holding s p σ q w) (q' : Problem) (calls : List Call) :
    Holding s p σ q' { w with problems := w.problems.put p (.live q'), calls } :=
  ⟨h.solver, h.busy, Store.get?_put_self h.problem⟩

theorem Holding.state (h : Holding s p σ q w) : (state s).run w = (.ok σ, w) := by
  rw [state_run, Store.get_of_get? h.solver]

/-! ### Lines -/

theorem note_reserved (severity : Severity) (origin : Origin) (text : String) :
    Along (Reserved s p) (Action.note severity origin text) := fun _ _ => ⟨rfl, fun _ => rfl⟩

/-- Only a run with the code zero is a good one. -/
theorem code_of_finishRun {method : String} {run : Run}
    (h : (finishRun sink method run).run w = (.ok true, v)) : run.code = 0 := by
  obtain ⟨_, u, -, h⟩ := Action.run_bind_eq_ok h
  by_contra hcode
  rw [if_neg hcode] at h
  obtain ⟨_, _, -, h⟩ := Action.run_bind_eq_ok h
  cases h

/-! ### Runs of the engine -/

theorem Holding.simplex (h : Holding s p σ q w) (engine : Engine) (control : SimplexControl) :
    (Problem.simplex engine control p).Ends w (.ok (engine.simplex control q))
      (Holding s p σ { q with relaxed := (engine.simplex control q).outcome }) := by
  refine .step (Problem.live_run h.problem) (.step rfl (.step (Problem.change_run _ h.problem) ?_))
  exact .pure _ (h.store _ _)

theorem Holding.search (h : Holding s p σ q w) (engine : Engine) (control : SearchControl) :
    (Problem.search engine control p).Ends w (.ok (engine.search control q))
      (Holding s p σ { q with integral := (engine.search control q).outcome }) := by
  refine .step (Problem.live_run h.problem) (.step rfl (.step (Problem.change_run _ h.problem) ?_))
  exact .pure _ (h.store _ _)

/-- What comes of finishing a good run. -/
theorem Holding.finishRun (h : Holding s p σ q w) (hsink : Aloof s p sink) {method : String}
    {run run' : Run} {good : Bool}
    (hrun : (do pure (← finishRun sink method run, run) : Action (Bool × Run)).run w =
      (.ok (good, run'), v)) :
    run' = run ∧ (good = true → run.code = 0) ∧ Holding s p σ q v := by
  obtain ⟨good', u, hfinish, hrun⟩ := Action.run_bind_eq_ok hrun
  cases hrun
  refine ⟨rfl, ?_, h.along (hsink.finishRun note_reserved method run) hfinish⟩
  rintro rfl
  exact code_of_finishRun hfinish

theorem runSimplex_ok (hsink : Aloof s p sink) (h : Holding s p σ q w) {good : Bool} {run : Run}
    (hrun : (runSimplex engine sink s p).run w = (.ok (good, run), v)) :
    ∃ control, σ.parameters.simplexControl = .ok control ∧ run = engine.simplex control q ∧
      (good = true → run.code = 0) ∧ Holding s p σ { q with relaxed := run.outcome } v := by
  rw [runSimplex, Action.run_bind_of_ok _ h.state] at hrun
  obtain ⟨control, hcontrol, hrun⟩ := Action.of_bind_eq_ok hrun
  obtain ⟨u, hu, hholding⟩ := (h.simplex engine control).exists_run
  rw [Action.run_bind_of_ok _ hu] at hrun
  obtain ⟨rfl, hcode, hholding⟩ := hholding.finishRun hsink hrun
  exact ⟨control, hcontrol, rfl, hcode, hholding⟩

theorem runSearch_ok (hsink : Aloof s p sink) (h : Holding s p σ q w) {good : Bool} {run : Run}
    (hrun : (runSearch engine sink s p).run w = (.ok (good, run), v)) :
    ∃ control, σ.parameters.searchControl = .ok control ∧ run = engine.search control q ∧
      (good = true → run.code = 0) ∧ Holding s p σ { q with integral := run.outcome } v := by
  rw [runSearch, Action.run_bind_of_ok _ h.state] at hrun
  obtain ⟨control, hcontrol, hrun⟩ := Action.of_bind_eq_ok hrun
  obtain ⟨u, hu, hholding⟩ := (h.search engine control).exists_run
  rw [Action.run_bind_of_ok _ hu] at hrun
  obtain ⟨rfl, hcode, hholding⟩ := hholding.finishRun hsink hrun
  exact ⟨control, hcontrol, rfl, hcode, hholding⟩

/-- **If all runs are good, the problem holds what the engine finds.** -/
theorem runEngine_ok (hsink : Aloof s p sink) (h : Holding s p σ q w) {t : Translation}
    {seconds : Float} (hrun : (runEngine engine sink s p t).run w = (.ok (some seconds), v)) :
    ∃ q' calls, Holding s p σ q' v ∧
      consult engine σ.parameters (q.load t.matrix.entries) t.mixedInteger =
        .ok ⟨some (outcome q' t.mixedInteger, seconds), calls⟩ := by
  obtain ⟨arrays, harrays, hrun⟩ := Action.of_bind_eq_ok hrun
  rw [Action.run_bind_of_ok _ (Translation.loadArrays_run harrays h.problem)] at hrun
  have h := h.store (q.load t.matrix.entries) w.calls
  generalize q.load t.matrix.entries = q at hrun h ⊢
  obtain ⟨⟨good, relaxation⟩, u, hsimplex, hrun⟩ := Action.run_bind_eq_ok hrun
  obtain ⟨control, hcontrol, rfl, hcode, h⟩ := runSimplex_ok hsink h hsimplex
  cases good with
  | false => cases hrun
  | true =>
    have hcode := hcode rfl
    cases hmixed : t.mixedInteger with
    | false =>
      simp only [hmixed] at hrun
      cases hrun
      exact ⟨_, _, h, consult_continuous hcontrol hcode⟩
    | true =>
      simp only [hmixed] at hrun
      obtain ⟨⟨good, search⟩, u, hsearch, hrun⟩ := Action.run_bind_eq_ok hrun
      obtain ⟨searchControl, hsearchControl, rfl, hcode', h⟩ := runSearch_ok hsink h hsearch
      cases good with
      | false => cases hrun
      | true =>
        cases hrun
        have hconsult := consult_mixed hcontrol hcode hsearchControl rfl
        rw [if_pos (hcode' rfl)] at hconsult
        exact ⟨_, _, h, hconsult⟩

/-! ### The whole -/

theorem translate_reserved (m : Model) (values : Overrides) (q : Problem) :
    Along (Reserved s p) (Translation.translate m values q) := by
  intro w _
  obtain ⟨intervals, journal, hafter⟩ := translate_after m values q w
  rw [hafter]
  exact ⟨rfl, fun _ => rfl⟩

/-- The model that is translated says whether the search is run. -/
theorem mixedInteger_of_translate {m : Model} {q' : Problem} {t : Translation}
    (h : (Translation.translate m values q).run w = (.ok (q', t), v)) :
    t.mixedInteger = m.isMixedInteger := by
  obtain ⟨pm, u, -, h⟩ := Action.run_bind_eq_ok h
  rw [Action.run_bind_of_ok _ (Action.run_get u)] at h
  have hcomplete := congrArg Prod.fst h
  obtain ⟨p, -, hcomplete⟩ := bind_eq_ok.1 hcomplete
  obtain ⟨st, -, hcomplete⟩ := bind_eq_ok.1 hcomplete
  cases hcomplete
  rfl

/-- Where a solution comes from: the model, as it stands at `w`, was translated into the problem
`q`; the engine found something there, by the runs that the translation asks for; and the solution
reports the outcome that `mixed` selects of what the problem then holds. -/
def ComesFrom (engine : Engine) (parameters : Parameters) (r : Ref Model) (values : Overrides)
    (mixed : Bool) (q : Problem) (w : Workspace) (x : Solution) (seconds : Float) : Prop :=
  ∃ q₁ t u q₂ calls m, (Translation.translate (w.models.get r) values q).run w = (.ok (q₁, t), u) ∧
    consult engine parameters (q₁.load t.matrix.entries) t.mixedInteger =
      .ok ⟨some (outcome q₂ t.mixedInteger, seconds), calls⟩ ∧
    x = solution m t (outcome q₂ mixed) seconds

theorem solveIn_ok (hsink : Aloof s p sink) (h : Holding s p σ q w) {x : Solution}
    {seconds : Float} (hrun : (solveIn engine sink s r values p).run w = (.ok (some (x, seconds)), v)) :
    ComesFrom engine σ.parameters r values σ.mixedInteger q w x seconds := by
  have hmodel : ∀ u, (Modeling.model r).run u = (.ok (u.models.get r), u) := fun _ => rfl
  rw [solveIn, Action.run_bind_of_ok _ (hmodel w),
    Action.run_bind_of_ok _ (Problem.live_run h.problem)] at hrun
  obtain ⟨⟨q₁, t⟩, u, htranslate, hrun⟩ := Action.run_bind_eq_ok hrun
  have h₁ := h.along (translate_reserved (w.models.get r) values q) htranslate
  have h₂ := h₁.store q₁ u.calls
  obtain ⟨_, u', hstore, hrun⟩ := Action.run_bind_eq_ok hrun
  cases hstore
  obtain ⟨_, w₃, hsummary, hrun⟩ := Action.run_bind_eq_ok hrun
  have h₃ := h₂.along (hsink.writeSummary note_reserved r t) hsummary
  obtain ⟨_, w₄, hwrite, hrun⟩ := Action.run_bind_eq_ok hrun
  have h₄ := h₃.along (hsink.write _) hwrite
  obtain ⟨seconds?, w₅, hengine, hrun⟩ := Action.run_bind_eq_ok hrun
  cases seconds? with
  | none => cases hrun
  | some seconds' =>
    obtain ⟨q₂, calls, h₅, hconsult⟩ := runEngine_ok hsink h₄ hengine
    rw [Action.run_bind_of_ok _ (Problem.live_run h₅.problem), Action.run_bind_of_ok _ h₅.state,
      Action.run_bind_of_ok _ (hmodel w₅)] at hrun
    cases hrun
    exact ⟨q₁, t, u, q₂, calls, _, htranslate, hconsult, rfl⟩

/-- What a solver does with the problem that it made. -/
theorem within_ok (hsink : Aloof s p sink) (h : Holding s p σ q w) {x : Solution}
    (hrun : (do
      match ← Problem.within p (solveIn engine sink s r values p) with
      | none => pure none
      | some (found, seconds) =>
        noteSolved found seconds
        pure (some found) : Action (Option Solution)).run w = (.ok (some x), v)) :
    ∃ seconds, ComesFrom engine σ.parameters r values σ.mixedInteger q w x seconds := by
  obtain ⟨found?, u, hwithin, hrun⟩ := Action.run_bind_eq_ok hrun
  obtain ⟨u', hsolve, -⟩ := Action.exists_run_of_ensuring hwithin
  cases found? with
  | none => cases hrun
  | some found =>
    obtain ⟨x', seconds⟩ := found
    cases hrun
    exact ⟨seconds, solveIn_ok hsink h hsolve⟩

/-- The workspace when the first line was received, from which the model is translated. -/
def afterFirstLine (sink : Option Sink) (s : Ref Solver) (r : Ref Model) (w : Workspace) :
    Workspace :=
  (write sink " - Creating GLPK model").after
    (begun s (w.models.get r) (change s (fun x => { x with busy := true }) w))

theorem begun_solver (hs : w.solvers.get? s = some σ) (m : Model) :
    (begun s m (change s (fun x => { x with busy := true }) w)).solvers.get? s =
      some { σ with busy := true, mixedInteger := m.isMixedInteger } := by
  have hbusy : (change s (fun x => { x with busy := true }) w).solvers.get? s =
      some { σ with busy := true } := by
    rw [change, Store.get?_put_self hs, Store.get_of_get? hs]
  rw [begun, change, Store.get?_put_self hbusy, Store.get_of_get? hbusy]

/-- **A solution comes from a model that was translated after the first line, and reports the
outcome that the model selects that was checked before it.** -/
theorem solve_ok (hsink : Aloof s (ownProblem sink s r w) sink)
    (hs : w.solvers.get? s = some σ) {x : Solution}
    (hrun : (solve engine sink s (some r) values).run w = (.ok (some x), v)) :
    Translation.checkModel (w.models.get r) w.constraints = .ok () ∧
      ∃ q seconds, named ((afterFirstLine sink s r w).models.get r).name = .ok q ∧
        ComesFrom engine σ.parameters r values (w.models.get r).isMixedInteger q
          { afterFirstLine sink s r w with
            problems := (afterFirstLine sink s r w).problems.push (.live q) } x seconds := by
  cases hbusy : (w.solvers.get s).busy with
  | true =>
    rw [solve_run_of_busy engine sink values hbusy] at hrun
    cases hrun
  | false =>
    rw [solve_run_of_idle engine sink values hbusy] at hrun
    obtain ⟨v', hrun, -⟩ := Action.exists_run_of_ensuring hrun
    rw [solveTaken, Action.run_bind_of_ok (x := Modeling.model r) _ rfl,
      Action.run_bind_of_ok _ (Action.run_get _)] at hrun
    obtain ⟨_, hcheck, hrun⟩ := Action.of_bind_eq_ok hrun
    refine ⟨hcheck, ?_⟩
    rw [Action.run_bind_of_ok _ (Action.run_modify _ _)] at hrun
    obtain ⟨_, w₂, hline, hrun⟩ := Action.run_bind_eq_ok hrun
    have hafter : afterFirstLine sink s r w = w₂ := congrArg Prod.snd hline
    have hown : ownProblem sink s r w = w₂.problems.next := by rw [← hafter]; rfl
    rw [hafter]
    rw [hown] at hsink
    have hbegun := begun_solver hs (w.models.get r)
    have hsolver : w₂.solvers.get? s =
        some { σ with busy := true, mixedInteger := (w.models.get r).isMixedInteger } := by
      rw [← hafter, ← hbegun]
      exact (hsink.write _ _ (by rw [Store.get_of_get? hbegun])).1
    rw [Action.run_bind_of_ok (x := Modeling.model r) _ rfl] at hrun
    have hcreate := create_run (w₂.models.get r).name w₂
    cases hname : named (w₂.models.get r).name with
    | error fault =>
      rw [hname] at hcreate
      rw [Action.run_bind_of_error _ hcreate] at hrun
      cases hrun
    | ok q =>
      rw [hname] at hcreate
      rw [Action.run_bind_of_ok _ hcreate] at hrun
      have hholding : Holding s w₂.problems.next _ q
          { w₂ with problems := w₂.problems.push (.live q) } :=
        ⟨hsolver, rfl, Store.get?_push_next _ _⟩
      obtain ⟨seconds, hreports⟩ := within_ok hsink hholding hrun
      exact ⟨q, seconds, rfl, hreports⟩

/-- **A solution reports the last run of the engine**, and so what the search found when the
problem has integer columns, if the first line leaves it at that whether the model has integer
variables. What becomes of the model when later lines are received does not matter. -/
theorem solve_reports_last (hsink : Aloof s (ownProblem sink s r w) sink)
    (hs : w.solvers.get? s = some σ)
    (hfirst : ((afterFirstLine sink s r w).models.get r).isMixedInteger =
      (w.models.get r).isMixedInteger)
    {x : Solution} (hrun : (solve engine sink s (some r) values).run w = (.ok (some x), v)) :
    ∃ q q₁ t u o seconds calls m,
      (Translation.translate ((afterFirstLine sink s r w).models.get r) values q).run
        { afterFirstLine sink s r w with
          problems := (afterFirstLine sink s r w).problems.push (.live q) } = (.ok (q₁, t), u) ∧
      t.mixedInteger = (w.models.get r).isMixedInteger ∧
      consult engine σ.parameters (q₁.load t.matrix.entries) t.mixedInteger =
        .ok ⟨some (o, seconds), calls⟩ ∧
      x = solution m t o seconds := by
  obtain ⟨-, q, seconds, -, q₁, t, u, q₂, calls, m, htranslate, hconsult, hx⟩ :=
    solve_ok hsink hs hrun
  have hmixed : t.mixedInteger = (w.models.get r).isMixedInteger :=
    (mixedInteger_of_translate htranslate).trans hfirst
  rw [← hmixed] at hx
  exact ⟨q, q₁, t, u, _, seconds, calls, m, htranslate, hmixed, hconsult, hx⟩

end

/-! ### A variable that comes too late -/

/-- A sink that adds an integer variable to a model that has no variable yet. -/
def latecomer (r : Ref Model) : Sink := fun _ => do
  if (← Modeling.model r).decisions.isEmpty then
    let _ ← Modeling.addNewVariable r { name := "n", domain := .text "integer" }

/-- An engine whose relaxations end at a half, and whose searches end at one. -/
def halfEngine : Engine where
  simplex _ _ := { outcome := ⟨5, 0.5, [0.5]⟩ }
  search _ _ := { outcome := ⟨5, 1.0, [1.0]⟩ }
  read _ _ := .done none

/-- An empty model with a solver. -/
def emptyWithSolver : Workspace :=
  (create {}).after ((Modeling.newModel (.empty (.text "m"))).after {})

/-- The value of a variable in the solution of a solve. -/
def reportedValue (name : String) (result : Except Fault (Option Solution)) : Option Scalar := do
  let values ← (← result.toOption.join).variableValues
  values.lookup name

/-- The search is run, and the solution reports the relaxation. -/
theorem latecomer_reports_relaxation :
    ((solve halfEngine (some (latecomer ⟨0⟩)) ⟨0⟩ (some ⟨0⟩) []).after emptyWithSolver).calls =
        [⟨⟨0⟩, .simplex, 0⟩, ⟨⟨0⟩, .search, 0⟩] ∧
      (reportedValue "n" ((solve halfEngine (some (latecomer ⟨0⟩)) ⟨0⟩ (some ⟨0⟩) []).run
        emptyWithSolver).1).any (·.same (.real 0.5)) = true := by
  simp only [solve, solveTaken, solveIn, Translation.translate, Overrides.during_of_nil]
  decide +kernel

end Solver

end Optimization
