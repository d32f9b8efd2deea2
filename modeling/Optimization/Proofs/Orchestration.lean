import Optimization.Proofs.Layout
import Optimization.Proofs.Listening

/-!
# The course of a solve

A solve works on a problem of its own, between steps in which a sink may act. What comes out is
computed by the plain function `answer`, whatever the engine does and whatever a discreet sink does.

* `consult` : the runs of the engine and what they find;
* `answer` : the outcome of a whole solve;
* `Stage` : the state between two steps, with the calls that were made so far;
* `solve_ends` : a solve has its answer, on every exit the model is as it was and the solver is
  idle, and the engine was called as the answer says.
-/

namespace Optimization.Solver

/-! ### Answers -/

/-- What an engine found, with the time it took, and the codes that it returned. -/
structure Reply where
  found : Option (Outcome × Float)
  calls : List (Method × Int)

/-- Have a loaded problem solved. -/
def consult (engine : Engine) (parameters : Parameters) (q : Problem) (mixedInteger : Bool) :
    Except Fault Reply := do
  let control ← parameters.simplexControl
  let relaxation := engine.simplex control q
  if relaxation.code ≠ 0 then pure ⟨none, [(.simplex, relaxation.code)]⟩
  else if !mixedInteger then
    pure ⟨some (relaxation.outcome, relaxation.seconds), [(.simplex, relaxation.code)]⟩
  else do
    let control ← parameters.searchControl
    let search := engine.search control { q with relaxed := relaxation.outcome }
    pure ⟨if search.code = 0 then some (search.outcome, relaxation.seconds + search.seconds)
      else none, [(.simplex, relaxation.code), (.search, search.code)]⟩

/-- The problem that `Problem.create` makes. -/
def named (name : Scalar) : Except Fault Problem :=
  if name.isTrue then do
    let name ← Problem.limitName name.toText
    pure { name := Problem.keptName name }
  else pure {}

/-- A model translated into an empty problem and loaded. -/
def prepare (m : Model) (cs : Store Constraint) (s : Store Interval) (values : Overrides)
    (q : Problem) : Except Fault (Problem × Translation) := do
  let (q, t) ← Translation.computed m values cs s q
  let _ ← t.matrix.build
  pure (q.load t.matrix.entries, t)

/-- The solution that a reply leads to. -/
def solutionOf (m : Model) (t : Translation) (reply : Reply) : Option Solution :=
  reply.found.map fun (o, seconds) => solution m t o seconds

/-- The outcome of a solve: a solution if all calls of the engine succeeded, and the calls. -/
def answer (engine : Engine) (parameters : Parameters) (m : Model) (cs : Store Constraint)
    (s : Store Interval) (values : Overrides) :
    Except Fault (Option Solution × List (Method × Int)) := do
  Translation.checkModel m cs
  let (q, t) ← prepare m cs s values (← named m.name)
  let reply ← consult engine parameters q t.mixedInteger
  pure (solutionOf m t reply, reply.calls)

section

variable {engine : Engine} {parameters : Parameters} {q : Problem} {control : SimplexControl}

theorem consult_simplex_failed {mixedInteger : Bool} (h : parameters.simplexControl = .ok control)
    (hcode : (engine.simplex control q).code ≠ 0) :
    consult engine parameters q mixedInteger =
      .ok ⟨none, [(.simplex, (engine.simplex control q).code)]⟩ := by
  rw [consult, h]
  exact if_pos hcode

theorem consult_continuous (h : parameters.simplexControl = .ok control)
    (hcode : (engine.simplex control q).code = 0) :
    consult engine parameters q false =
      .ok ⟨some ((engine.simplex control q).outcome, (engine.simplex control q).seconds),
        [(.simplex, (engine.simplex control q).code)]⟩ := by
  rw [consult, h]
  exact if_neg (not_not_intro hcode)

theorem consult_search_refused (h : parameters.simplexControl = .ok control)
    (hcode : (engine.simplex control q).code = 0) {fault : Fault}
    (hsearch : parameters.searchControl = .error fault) :
    consult engine parameters q true = .error fault := by
  rw [consult, h, hsearch]
  exact if_neg (not_not_intro hcode)

theorem consult_mixed (h : parameters.simplexControl = .ok control)
    (hcode : (engine.simplex control q).code = 0) {searchControl : SearchControl}
    (hsearch : parameters.searchControl = .ok searchControl) {search : Run}
    (hrun : engine.search searchControl { q with relaxed := (engine.simplex control q).outcome } =
      search) :
    consult engine parameters q true =
      .ok ⟨if search.code = 0 then
          some (search.outcome, (engine.simplex control q).seconds + search.seconds)
        else none, [(.simplex, (engine.simplex control q).code), (.search, search.code)]⟩ := by
  subst hrun
  rw [consult, h, hsearch]
  exact if_neg (not_not_intro hcode)

end

section

variable {engine : Engine} {sink : Option Sink} {s : Ref Solver} {r : Ref Model}
  {w w' : Workspace} {σ : Solver} {p : Ref Lifetime} {q q' : Problem} {values : Overrides}
  {calls : List (Method × Int)}

/-- Only the model's own bounds and constraints matter for the answer. -/
theorem answer_congr (h : SameModel r w w') (engine : Engine) (parameters : Parameters)
    (values : Overrides) :
    answer engine parameters (w'.models.get r) w'.constraints w'.intervals values =
      answer engine parameters (w.models.get r) w.constraints w.intervals values := by
  unfold answer prepare
  rw [h.get, Translation.checkModel_congr h.constraints]
  simp only [Translation.computed_congr h.intervals h.constraints]

/-! ### Stages -/

/-- Calls on a problem. -/
def callsAt (p : Ref Lifetime) (calls : List (Method × Int)) : List Call :=
  calls.map fun (method, code) => ⟨p, method, code⟩

/-- Between two steps of a solve that began at `w`: the model is as it was, the solver has the state
`σ`, the problem `q` stands in the cell `p`, and the engine was called on it as listed. -/
structure Stage (sink : Option Sink) (s : Ref Solver) (r : Ref Model) (w : Workspace)
    (σ : Solver) (p : Ref Lifetime) (q : Problem) (calls : List (Method × Int)) (w' : Workspace) :
    Prop where
  same : SameModel r w w'
  solver : w'.solvers.get? s = some σ
  fresh : w.problems.get? p = none
  size : w.problems.next.index ≤ w'.problems.next.index
  problem : w'.problems.get? p = some (.live q)
  called : callsOn p w' = callsOn p w ++ callsAt p calls
  quiet : sink = none → w'.calls = w.calls ++ callsAt p calls

theorem Stage.journal (h : Stage sink s r w σ p q calls w') (journal : List Note) :
    Stage sink s r w σ p q calls { w' with journal } :=
  { h with same := ⟨h.same.model, h.same.constraints, h.same.intervals⟩ }

/-- A step that leaves the solve alone. -/
theorem Stage.untouched {f : Sink} {w'' : Workspace} (h : Stage (some f) s r w σ p q calls w')
    (hu : Untouched s r p w' w'') : Stage (some f) s r w σ p q calls w'' where
  same := h.same.trans hu.same
  solver := hu.solver.trans h.solver
  fresh := h.fresh
  size := Nat.le_trans h.size hu.size
  problem := (hu.problem (h.problem ▸ rfl)).trans h.problem
  called := (hu.calls (.inl (h.problem ▸ rfl))).trans h.called
  quiet := by simp

theorem Stage.store (h : Stage sink s r w σ p q calls w') (q' : Problem) :
    Stage sink s r w σ p q' calls { w' with problems := w'.problems.put p (.live q') } :=
  { h with
    same := ⟨h.same.model, h.same.constraints, h.same.intervals⟩
    size := by rw [Store.next_put]; exact h.size
    problem := Store.get?_put_self h.problem }

theorem Stage.live (h : Stage sink s r w σ p q calls w') :
    (Problem.live p).run w' = (.ok q, w') :=
  Problem.live_run h.problem

theorem Stage.change (h : Stage sink s r w σ p q calls w') (f : Problem → Problem) :
    (Problem.change p f).run w' =
      (.ok (), { w' with problems := w'.problems.put p (.live (f q)) }) :=
  Problem.change_run f h.problem

/-- One more call of the engine. -/
theorem Stage.call (h : Stage sink s r w σ p q calls w') (method : Method) (run : Run) :
    (Problem.recordCall p method run).Ends w' (.ok ())
      (Stage sink s r w σ p q (calls ++ [(method, run.code)])) := by
  refine .of_run rfl { h with
    same := ⟨h.same.model, h.same.constraints, h.same.intervals⟩
    called := ?_
    quiet := fun hs => ?_ }
  · have := h.called
    unfold callsOn at this ⊢
    rw [List.filter_append, this]
    simp [callsAt]
  · show w'.calls ++ _ = _
    rw [h.quiet hs]
    simp [callsAt]

/-! ### Steps -/

/-- A line goes to the sink, which leaves the solve alone. -/
theorem write_ends (hsink : ∀ f, sink = some f → Discreet s r p f) (hbusy : σ.busy = true)
    (h : Stage sink s r w σ p q calls w') (line : String) :
    (write sink line).Ends w' (.ok ()) (Stage sink s r w σ p q calls) := by
  cases sink with
  | none => exact .of_run rfl h
  | some f =>
    have hbusy' : (w'.solvers.get s).busy = true := by
      rw [Store.get_of_get? h.solver, hbusy]
    exact (hsink f rfl line w' hbusy').mono fun _ hu => h.untouched hu

theorem writeAll_ends (hsink : ∀ f, sink = some f → Discreet s r p f) (hbusy : σ.busy = true)
    (h : Stage sink s r w σ p q calls w') (lines : List String) :
    (lines.forM (write sink)).Ends w' (.ok ()) (Stage sink s r w σ p q calls) :=
  .forM h fun line _ _ h => write_ends hsink hbusy h line

theorem note_ends (h : Stage sink s r w σ p q calls w') (severity : Severity) (origin : Origin)
    (text : String) : (Action.note severity origin text).Ends w' (.ok ())
      (Stage sink s r w σ p q calls) :=
  .of_run rfl (h.journal _)

theorem writeSummary_ends (hsink : ∀ f, sink = some f → Discreet s r p f) (hbusy : σ.busy = true)
    (h : Stage sink s r w σ p q calls w') (t : Translation) :
    (writeSummary sink r t).Ends w' (.ok ()) (Stage sink s r w σ p q calls) := by
  refine .step rfl (.bind_ok (writeAll_ends hsink hbusy h _) fun w'' h => ?_)
  exact .step rfl (note_ends h _ _ _)

/-- A run is finished by writing its lines; it succeeded when its code is zero. -/
theorem finishRun_ends (hsink : ∀ f, sink = some f → Discreet s r p f) (hbusy : σ.busy = true)
    (h : Stage sink s r w σ p q calls w') (method : String) (run : Run) :
    (finishRun sink method run).Ends w' (.ok (decide (run.code = 0)))
      (Stage sink s r w σ p q calls) := by
  refine .bind_ok (writeAll_ends hsink hbusy h _) fun w'' h => ?_
  by_cases hcode : run.code = 0
  · rw [if_pos hcode, decide_eq_true hcode]
    exact .pure true h
  · rw [if_neg hcode, decide_eq_false hcode]
    refine .bind_ok (a := ()) ?_ fun w'' h => .pure false h
    exact .bind_ok (note_ends h _ _ _) fun w'' h => write_ends hsink hbusy h _

/-! ### Runs of the engine -/

/-- A run of the engine is recorded, and its outcome is kept with the problem. -/
theorem keep_ends (h : Stage sink s r w σ p q calls w') (method : Method) (run : Run)
    (f : Problem → Problem) :
    (do
        Problem.recordCall p method run
        Problem.change p f
        pure run : Action Run).Ends w' (.ok run)
      (Stage sink s r w σ p (f q) (calls ++ [(method, run.code)])) :=
  .bind_ok (h.call method run) fun _ h => .step (h.change f) (.pure run (h.store _))

theorem Stage.state (h : Stage sink s r w σ p q calls w') : (state s).run w' = (.ok σ, w') := by
  rw [state_run, Store.get_of_get? h.solver]

theorem runSimplex_ends (engine : Engine) (hsink : ∀ f, sink = some f → Discreet s r p f)
    (hbusy : σ.busy = true) (h : Stage sink s r w σ p q calls w') {control : SimplexControl}
    (hcontrol : σ.parameters.simplexControl = .ok control) :
    (runSimplex engine sink s p).Ends w'
      (.ok (decide ((engine.simplex control q).code = 0), engine.simplex control q))
      (Stage sink s r w σ p { q with relaxed := (engine.simplex control q).outcome }
        (calls ++ [(.simplex, (engine.simplex control q).code)])) := by
  have hrun : (Problem.simplex engine control p).Ends w' (.ok (engine.simplex control q))
      (Stage sink s r w σ p { q with relaxed := (engine.simplex control q).outcome }
        (calls ++ [(.simplex, (engine.simplex control q).code)])) :=
    .step h.live (keep_ends h _ _ _)
  refine .step h.state ?_
  rw [hcontrol]
  refine .step rfl (.bind_ok hrun fun _ h => ?_)
  exact .bind_ok (finishRun_ends hsink hbusy h _ _) fun _ h => .pure _ h

theorem runSearch_ends (engine : Engine) (hsink : ∀ f, sink = some f → Discreet s r p f)
    (hbusy : σ.busy = true) (h : Stage sink s r w σ p q calls w') {control : SearchControl}
    (hcontrol : σ.parameters.searchControl = .ok control) :
    (runSearch engine sink s p).Ends w'
      (.ok (decide ((engine.search control q).code = 0), engine.search control q))
      (Stage sink s r w σ p { q with integral := (engine.search control q).outcome }
        (calls ++ [(.search, (engine.search control q).code)])) := by
  have hrun : (Problem.search engine control p).Ends w' (.ok (engine.search control q))
      (Stage sink s r w σ p { q with integral := (engine.search control q).outcome }
        (calls ++ [(.search, (engine.search control q).code)])) :=
    .step h.live (keep_ends h _ _ _)
  refine .step h.state ?_
  rw [hcontrol]
  refine .step rfl (.bind_ok hrun fun _ h => ?_)
  exact .bind_ok (finishRun_ends hsink hbusy h _ _) fun _ h => .pure _ h

/-- What is left when the engine was asked: the stage that the reply tells, or, where parameters
were refused, some stage. -/
def Consulted (sink : Option Sink) (s : Ref Solver) (r : Ref Model) (w : Workspace)
    (σ : Solver) (p : Ref Lifetime) (mixedInteger : Bool) (reply : Except Fault Reply)
    (w' : Workspace) : Prop :=
  match reply with
  | .ok reply => ∃ q, Stage sink s r w σ p q reply.calls w' ∧
      ∀ o seconds, reply.found = some (o, seconds) → outcome q mixedInteger = o
  | .error _ => ∃ q calls, Stage sink s r w σ p q calls w'

/-- **The engine is run as the reply tells, on the loaded problem.** -/
theorem runEngine_ends (engine : Engine) (hsink : ∀ f, sink = some f → Discreet s r p f)
    (hbusy : σ.busy = true) (h : Stage sink s r w σ p q [] w') {t : Translation}
    {arrays : ParallelArrays} (harrays : t.matrix.build = .ok arrays) :
    (runEngine engine sink s p t).Ends w'
      ((consult engine σ.parameters (q.load t.matrix.entries) t.mixedInteger).map
        fun reply => reply.found.map Prod.snd)
      (Consulted sink s r w σ p t.mixedInteger
        (consult engine σ.parameters (q.load t.matrix.entries) t.mixedInteger)) := by
  have hload := Translation.loadArrays_run harrays h.problem
  have h := h.store (q.load t.matrix.entries)
  generalize q.load t.matrix.entries = q at hload h ⊢
  unfold runEngine
  rw [harrays]
  refine .step rfl (.step hload ?_)
  cases hcontrol : σ.parameters.simplexControl with
  | error fault =>
    rw [consult, hcontrol]
    refine .bind_error (.step h.state ?_)
    rw [hcontrol]
    exact .bind_error (.of_run rfl ⟨_, _, h⟩)
  | ok control =>
    refine .bind_ok (runSimplex_ends engine hsink hbusy h hcontrol) fun w₁ h₁ => ?_
    by_cases hcode : (engine.simplex control q).code = 0
    · rw [decide_eq_true hcode]
      cases hmixed : t.mixedInteger with
      | false =>
        -- without integer variables the relaxation is all
        rw [consult_continuous hcontrol hcode]
        refine .pure _ ⟨_, h₁, ?_⟩
        rintro o seconds ⟨⟩
        rfl
      | true =>
        cases hsearch : σ.parameters.searchControl with
        | error fault =>
          rw [consult_search_refused hcontrol hcode hsearch]
          refine .bind_error (.step h₁.state ?_)
          rw [hsearch]
          exact .bind_error (.of_run rfl ⟨_, _, h₁⟩)
        | ok searchControl =>
          have hrun := runSearch_ends engine hsink hbusy h₁ hsearch
          generalize hs : engine.search searchControl
            { q with relaxed := (engine.simplex control q).outcome } = search at hrun
          rw [consult_mixed hcontrol hcode hsearch hs]
          refine .bind_ok hrun fun w₂ h₂ => ?_
          by_cases hcode₂ : search.code = 0
          · rw [decide_eq_true hcode₂, if_pos hcode₂]
            refine .pure _ ⟨_, h₂, ?_⟩
            rintro o seconds ⟨⟩
            rfl
          · rw [decide_eq_false hcode₂, if_neg hcode₂]
            refine .pure _ ⟨_, h₂, ?_⟩
            rintro o seconds ⟨⟩
    · rw [decide_eq_false hcode, consult_simplex_failed hcontrol hcode]
      refine .pure none ⟨_, h₁, ?_⟩
      rintro o seconds ⟨⟩

/-! ### The whole -/

/-- What is left when a problem was worked on: the engine was called as the reply tells. -/
def Worked (sink : Option Sink) (s : Ref Solver) (r : Ref Model) (w : Workspace)
    (σ : Solver) (p : Ref Lifetime) (reply : Except Fault Reply) (w' : Workspace) : Prop :=
  match reply with
  | .ok reply => ∃ q, Stage sink s r w σ p q reply.calls w'
  | .error _ => ∃ q calls, Stage sink s r w σ p q calls w'

theorem mixedInteger_of_computed {m : Model} {cs : Store Constraint} {bounds : Store Interval}
    {t : Translation} (h : Translation.computed m values cs bounds q = .ok (q', t)) :
    t.mixedInteger = m.isMixedInteger := by
  obtain ⟨pm, -, h⟩ := bind_eq_ok.1 h
  obtain ⟨p, -, h⟩ := bind_eq_ok.1 h
  obtain ⟨st, -, h⟩ := bind_eq_ok.1 h
  cases h
  rfl

theorem prepare_refused {m : Model} {cs : Store Constraint} {bounds : Store Interval}
    {fault : Fault} (h : Translation.computed m values cs bounds q = .error fault) :
    prepare m cs bounds values q = .error fault := by
  rw [prepare, h]
  rfl

theorem prepare_translated {m : Model} {cs : Store Constraint} {bounds : Store Interval}
    {t : Translation} (h : Translation.computed m values cs bounds q = .ok (q', t)) :
    prepare m cs bounds values q = t.matrix.build.map fun _ => (q'.load t.matrix.entries, t) := by
  rw [prepare, h]
  cases hbuild : t.matrix.build <;> simp only [bind, Except.bind, hbuild] <;> rfl

theorem model_run (h : SameModel r w w') :
    (Modeling.model r).run w' = (.ok (w.models.get r), w') := by
  rw [← h.get]
  rfl

theorem solveIn_ends (engine : Engine) (values : Overrides)
    (hcells : ((w.models.get r).decisions.map (·.cell)).Nodup)
    (hsink : ∀ f, sink = some f → Discreet s r p f) (hbusy : σ.busy = true)
    (hmixed : σ.mixedInteger = (w.models.get r).isMixedInteger)
    (h : Stage sink s r w σ p q [] w') :
    (solveIn engine sink s r values p).Ends w'
      (prepare (w.models.get r) w.constraints w.intervals values q >>= fun x =>
        (consult engine σ.parameters x.1 x.2.mixedInteger).map fun reply =>
          reply.found.map fun found => (solution (w.models.get r) x.2 found.1 found.2, found.2))
      (Worked sink s r w σ p
        (prepare (w.models.get r) w.constraints w.intervals values q >>= fun x =>
          consult engine σ.parameters x.1 x.2.mixedInteger)) := by
  have htranslate := Translation.translate_ends values hcells w' q
  rw [Translation.computed_congr h.same.intervals h.same.constraints] at htranslate
  refine .step (model_run h.same) (.step h.live ?_)
  cases hcomputed : Translation.computed (w.models.get r) values w.constraints w.intervals q with
  | error fault =>
    rw [hcomputed] at htranslate
    rw [prepare_refused hcomputed]
    refine .bind_error (htranslate.mono ?_)
    rintro _ ⟨journal, rfl⟩
    exact ⟨_, _, h.journal journal⟩
  | ok x =>
    obtain ⟨q', t⟩ := x
    rw [hcomputed] at htranslate
    rw [prepare_translated hcomputed]
    -- all bounds are back in place, and the journal is all that changed
    refine .bind_ok htranslate ?_
    rintro _ ⟨journal, rfl⟩
    refine .step rfl (.bind_ok (writeSummary_ends hsink hbusy ((h.journal journal).store q') t)
      fun w₁ h₁ => ?_)
    refine .bind_ok (write_ends hsink hbusy h₁ _) fun w₂ h₂ => ?_
    cases harrays : t.matrix.build with
    | error fault =>
      refine .bind_error ?_
      rw [runEngine, harrays]
      exact .bind_error (.of_run rfl ⟨_, _, h₂⟩)
    | ok arrays =>
      have hrun := runEngine_ends engine hsink hbusy h₂ harrays
      change Action.Ends _ _ (Except.map _ (consult engine σ.parameters (q'.load t.matrix.entries)
        t.mixedInteger)) (Worked sink s r w σ p (consult engine σ.parameters
          (q'.load t.matrix.entries) t.mixedInteger))
      cases hreply : consult engine σ.parameters (q'.load t.matrix.entries) t.mixedInteger with
      | error fault =>
        rw [hreply] at hrun
        exact .bind_error hrun
      | ok reply =>
        obtain ⟨found, calls⟩ := reply
        rw [hreply] at hrun
        obtain ⟨w₃, hw₃, q₃, h₃, hfound⟩ := hrun.exists_run
        have hworked : Worked sink s r w σ p (.ok ⟨found, calls⟩) w₃ := ⟨q₃, h₃⟩
        refine .step hw₃ ?_
        cases found with
        | none => exact .of_run rfl hworked
        | some found =>
          obtain ⟨o, seconds⟩ := found
          -- the outcome stands in the problem, where the run of the engine left it
          refine .step h₃.live ?_
          refine .step h₃.state ?_
          refine .step (model_run h₃.same) ?_
          rw [hmixed, ← mixedInteger_of_computed hcomputed, hfound o seconds rfl]
          exact .of_run rfl hworked

/-- A problem is created, and stays empty when its name is refused. -/
theorem create_run (name : Scalar) (w : Workspace) :
    (Problem.create name).run w =
      match named name with
      | .ok q => (.ok w.problems.next, { w with problems := w.problems.push (.live q) })
      | .error fault => (.error fault, { w with problems := w.problems.push (.live {}) }) := by
  have hadopt : (Problem.adopt {}).run w =
      (.ok w.problems.next, { w with problems := w.problems.push (.live {}) }) := rfl
  rw [Problem.create, Action.run_bind_of_ok _ hadopt, named]
  cases name.isTrue with
  | false => rfl
  | true =>
    rw [if_pos rfl, if_pos rfl]
    cases hname : Problem.limitName name.toText with
    | error fault => rfl
    | ok text =>
      have hchange := Problem.change_run
        (w := { w with problems := w.problems.push (.live {}) })
        (fun p => { p with name := Problem.keptName text }) (Store.get?_push_next _ _)
      rw [Store.put_push_next] at hchange
      rw [Action.run_bind_of_ok _ (Action.run_of _ _), Action.run_bind_of_ok _ hchange]
      rfl

/-- What is left when a solve is over, but for the busy flag: the model is as it was, the solver is
in some state with its parameters, and the engine was called as the answer tells. -/
structure Over (sink : Option Sink) (s : Ref Solver) (r : Ref Model) (w : Workspace)
    (parameters : Parameters) (busy : Bool) (p : Ref Lifetime)
    (reply : Except Fault (Option Solution × List (Method × Int))) (w' : Workspace) : Prop where
  same : SameModel r w w'
  solver : ∃ σ, w'.solvers.get? s = some σ ∧ σ.parameters = parameters ∧ σ.busy = busy
  size : w.problems.next.index ≤ w'.problems.next.index
  called : ∀ found calls, reply = .ok (found, calls) →
    w.problems.get? p = none ∧ w'.problems.get? p = some .freed ∧
      callsOn p w' = callsOn p w ++ callsAt p calls ∧
      (sink = none → w'.calls = w.calls ++ callsAt p calls)

/-- Before a solve that began at `w` has a problem: the model is as it was, and the solver has the
state `σ`. -/
structure Held (sink : Option Sink) (s : Ref Solver) (r : Ref Model) (w : Workspace) (σ : Solver)
    (p : Ref Lifetime) (w' : Workspace) : Prop where
  same : SameModel r w w'
  solver : w'.solvers.get? s = some σ
  size : w.problems.next.index ≤ w'.problems.next.index
  called : w'.problems.get? p = none → callsOn p w' = callsOn p w
  quiet : sink = none → w'.calls = w.calls

theorem Held.refl (sink : Option Sink) (r : Ref Model) (hs : w.solvers.get? s = some σ)
    (p : Ref Lifetime) : Held sink s r w σ p w :=
  ⟨.refl r w, hs, Nat.le_refl _, fun _ => rfl, fun _ => rfl⟩

theorem Held.over (h : Held sink s r w σ p w') (fault : Fault) :
    Over sink s r w σ.parameters σ.busy p (.error fault) w' where
  same := h.same
  solver := ⟨σ, h.solver, rfl, rfl⟩
  size := h.size
  called := by rintro found calls ⟨⟩

theorem Held.change (h : Held sink s r w σ p w') (f : Solver → Solver) :
    Held sink s r w (f σ) p (change s f w') := by
  refine { h with
    same := ⟨h.same.model, h.same.constraints, h.same.intervals⟩
    solver := ?_ }
  show (w'.solvers.put s (f (w'.solvers.get s))).get? s = _
  rw [Store.get?_put_self h.solver, Store.get_of_get? h.solver]

theorem Held.write (h : Held sink s r w σ p w') (hsink : ∀ f, sink = some f → Discreet s r p f)
    (hbusy : σ.busy = true) (line : String) :
    (write sink line).Ends w' (.ok ()) (Held sink s r w σ p) := by
  cases sink with
  | none => exact .of_run rfl h
  | some f =>
    have hbusy' : (w'.solvers.get s).busy = true := by
      rw [Store.get_of_get? h.solver, hbusy]
    refine (hsink f rfl line w' hbusy').mono fun w'' hu => ?_
    refine ⟨h.same.trans hu.same, hu.solver.trans h.solver,
      Nat.le_trans h.size hu.size, ?_, by simp⟩
    intro hnone
    -- what was there before the line is still there
    have hnone' : w'.problems.get? p = none := by
      by_contra hsome
      have hkept := hu.problem (Option.isSome_iff_ne_none.2 hsome)
      exact hsome (hkept ▸ hnone)
    rw [hu.calls (.inr hnone), h.called hnone']

/-- A new problem begins the stages. -/
theorem Held.stage (h : Held sink s r w σ p w') (hp : w'.problems.next = p) (q : Problem) :
    Stage sink s r w σ p q [] { w' with problems := w'.problems.push (.live q) } := by
  subst hp
  exact {
    same := ⟨h.same.model, h.same.constraints, h.same.intervals⟩
    solver := h.solver
    fresh := Array.getElem?_eq_none h.size
    size := Nat.le_trans h.size (by simp [Store.next, Store.push])
    problem := Store.get?_push_next _ _
    called := (h.called (Store.get?_next _)).trans (List.append_nil _).symm
    quiet := fun hs => (h.quiet hs).trans (List.append_nil _).symm }

theorem Stage.over (h : Stage sink s r w σ p q calls w') (fault : Fault) :
    Over sink s r w σ.parameters σ.busy p (.error fault) w' where
  same := h.same
  solver := ⟨σ, h.solver, rfl, rfl⟩
  size := h.size
  called := by rintro found calls ⟨⟩

/-- Freeing the problem ends the stages. -/
theorem Stage.release (h : Stage sink s r w σ p q calls w') (found : Option Solution) :
    Over sink s r w σ.parameters σ.busy p (.ok (found, calls)) (Problem.release p w') := by
  have hrelease : Problem.release p w' =
      { w' with problems := w'.problems.put p .freed, deletions := w'.deletions ++ [p] } := by
    rw [Problem.release, Store.get_of_get? h.problem]
  rw [hrelease]
  refine ⟨⟨h.same.model, h.same.constraints, h.same.intervals⟩, ⟨σ, h.solver, rfl, rfl⟩, ?_, ?_⟩
  · rw [Store.next_put]
    exact h.size
  · rintro found calls ⟨⟩
    exact ⟨h.fresh, Store.get?_put_self h.problem, h.called, h.quiet⟩

theorem Over.error {reply : Except Fault (Option Solution × List (Method × Int))}
    {parameters : Parameters} {busy : Bool} (h : Over sink s r w parameters busy p reply w')
    (fault : Fault) : Over sink s r w parameters busy p (.error fault) w' :=
  { h with called := by rintro found calls ⟨⟩ }

theorem Over.journal {reply : Except Fault (Option Solution × List (Method × Int))}
    {parameters : Parameters} {busy : Bool} (h : Over sink s r w parameters busy p reply w')
    (journal : List Note) : Over sink s r w parameters busy p reply { w' with journal } :=
  { h with same := ⟨h.same.model, h.same.constraints, h.same.intervals⟩ }

theorem Over.change {reply : Except Fault (Option Solution × List (Method × Int))}
    {parameters : Parameters} {busy : Bool} (h : Over sink s r w parameters busy p reply w')
    (b : Bool) :
    Over sink s r w parameters b p reply (change s (fun x => { x with busy := b }) w') := by
  obtain ⟨σ, hσ, hparameters, -⟩ := h.solver
  refine { h with
    same := ⟨h.same.model, h.same.constraints, h.same.intervals⟩
    solver := ⟨{ σ with busy := b }, ?_, hparameters, rfl⟩ }
  show (w'.solvers.put s { w'.solvers.get s with busy := b }).get? s = _
  rw [Store.get?_put_self hσ, Store.get_of_get? hσ]

/-- The problem of a solve is freed whatever became of it. -/
theorem Worked.release {reply : Except Fault Reply} (h : Worked sink s r w σ p reply w')
    (found : Reply → Option Solution) :
    Over sink s r w σ.parameters σ.busy p (reply.map fun x => (found x, x.calls))
      (Problem.release p w') := by
  cases reply with
  | ok reply =>
    obtain ⟨q, h⟩ := h
    exact h.release (found reply)
  | error fault =>
    obtain ⟨q, calls, h⟩ := h
    exact (h.release none).error fault

/-- The answer of a solve whose problem was made. -/
theorem answer_of_named {parameters : Parameters} {m : Model} {cs : Store Constraint}
    {bounds : Store Interval} (hcheck : Translation.checkModel m cs = .ok ())
    (hnamed : named m.name = .ok q) :
    answer engine parameters m cs bounds values =
      (do
        let (q, t) ← prepare m cs bounds values q
        let reply ← consult engine parameters q t.mixedInteger
        pure (solutionOf m t reply, reply.calls)) := by
  rw [answer, hcheck, hnamed]
  rfl

/-- A taken solver whose next state is known, but for the first line. -/
def begun (s : Ref Solver) (m : Model) (w : Workspace) : Workspace :=
  change s (fun x => { x with mixedInteger := m.isMixedInteger }) w

/-- The cell of the problem that a solve works on, if it gets that far: the next one when the first
line is written. -/
def ownProblem (sink : Option Sink) (s : Ref Solver) (r : Ref Model) (w : Workspace) :
    Ref Lifetime :=
  ((write sink " - Creating GLPK model").after
    (begun s (w.models.get r) (change s (fun x => { x with busy := true }) w))).problems.next

/-- A solve works on a problem that was not there before. -/
theorem ownProblem_fresh (hs : w.solvers.get? s = some σ)
    (hsink : ∀ f, sink = some f → Discreet s r p f) :
    w.problems.get? (ownProblem sink s r w) = none := by
  have htaken := (Held.refl sink r hs p).change fun x => { x with busy := true }
  have hbegun := htaken.change fun x =>
    { x with mixedInteger := (w.models.get r).isMixedInteger }
  exact Array.getElem?_eq_none (hbegun.write hsink rfl " - Creating GLPK model").after.size

theorem solveTaken_ends (engine : Engine) (values : Overrides)
    (hcells : ((w.models.get r).decisions.map (·.cell)).Nodup)
    (hsink : ∀ f, sink = some f → Discreet s r p f) (hbusy : σ.busy = true)
    (h : Held sink s r w σ p w')
    (hp : ((write sink " - Creating GLPK model").after
      (begun s (w.models.get r) w')).problems.next = p) :
    (solveTaken engine sink s r values).Ends w'
      ((answer engine σ.parameters (w.models.get r) w.constraints w.intervals values).map Prod.fst)
      (Over sink s r w σ.parameters σ.busy p
        (answer engine σ.parameters (w.models.get r) w.constraints w.intervals values)) := by
  refine .step (model_run h.same) (.step (Action.run_get w') ?_)
  rw [Translation.checkModel_congr h.same.constraints]
  cases hcheck : Translation.checkModel (w.models.get r) w.constraints with
  | error fault =>
    rw [answer, hcheck]
    exact .bind_error (.of_run rfl (h.over fault))
  | ok u =>
    refine .step rfl (.step (Action.run_modify _ _) ?_)
    have h₁ := h.change fun x => { x with mixedInteger := (w.models.get r).isMixedInteger }
    obtain ⟨w₂, hwrite, h₂⟩ := (h₁.write hsink hbusy " - Creating GLPK model").exists_run
    rw [Action.after, begun, hwrite] at hp
    refine .step hwrite (.step (model_run h₂.same) ?_)
    have hcreate := create_run (w.models.get r).name w₂
    rw [show w₂.problems.next = p from hp] at hcreate
    cases hnamed : named (w.models.get r).name with
    | error fault =>
      -- the empty problem stays, and nothing is known of it any more
      rw [hnamed] at hcreate
      rw [answer, hcheck, hnamed]
      exact .bind_error (.of_run hcreate ((h₂.stage hp {}).over fault))
    | ok q =>
      rw [hnamed] at hcreate
      rw [answer_of_named hcheck hnamed]
      refine .step hcreate ?_
      have hsolve := solveIn_ends (σ := { σ with mixedInteger := (w.models.get r).isMixedInteger })
        engine values hcells hsink hbusy rfl (h₂.stage hp q)
      cases hprepare : prepare (w.models.get r) w.constraints w.intervals values q with
      | error fault =>
        rw [hprepare] at hsolve
        exact .bind_error (hsolve.ensuring _ fun w₃ h₃ => h₃.release fun _ => none)
      | ok x =>
        obtain ⟨q', t⟩ := x
        rw [hprepare] at hsolve
        change Action.Ends _ _ (Except.map _ (consult engine σ.parameters q' t.mixedInteger))
          (Worked sink s r w _ _ (consult engine σ.parameters q' t.mixedInteger)) at hsolve
        show Action.Ends _ _ (Except.map _ (consult engine σ.parameters q' t.mixedInteger >>= _))
          (Over _ _ _ _ _ _ _ (consult engine σ.parameters q' t.mixedInteger >>= _))
        cases hreply : consult engine σ.parameters q' t.mixedInteger with
        | error fault =>
          rw [hreply] at hsolve
          exact .bind_error (hsolve.ensuring _ fun w₃ h₃ => h₃.release fun _ => none)
        | ok reply =>
          rw [hreply] at hsolve
          refine .bind_ok (hsolve.ensuring _ fun w₃ h₃ =>
            h₃.release (solutionOf (w.models.get r) t)) fun w₃ h₃ => ?_
          obtain ⟨found, calls⟩ := reply
          cases found with
          | none => exact .of_run rfl h₃
          | some found => exact .of_run rfl (h₃.journal _)

/-- **An idle solver solves a model as the answer tells.** On every exit the model is as it was and
the solver is idle. The sink must leave the problem of the solve alone. -/
theorem solve_ends (engine : Engine) (values : Overrides) (hs : w.solvers.get? s = some σ)
    (hidle : σ.busy = false) (hcells : ((w.models.get r).decisions.map (·.cell)).Nodup)
    (hsink : ∀ f, sink = some f → Discreet s r (ownProblem sink s r w) f) :
    (solve engine sink s (some r) values).Ends w
      ((answer engine σ.parameters (w.models.get r) w.constraints w.intervals values).map Prod.fst)
      (Over sink s r w σ.parameters false (ownProblem sink s r w)
        (answer engine σ.parameters (w.models.get r) w.constraints w.intervals values)) := by
  have hidle' : (w.solvers.get s).busy = false := by rw [Store.get_of_get? hs, hidle]
  simp only [solve]
  refine .step (state_run s w) ?_
  rw [hidle']
  refine .step (Action.run_modify _ w) ?_
  have htaken := (Held.refl sink r hs (ownProblem sink s r w)).change fun x =>
    { x with busy := true }
  exact (solveTaken_ends engine values hcells hsink rfl htaken rfl).ensuring _
    fun w' h => h.change false

end

end Optimization.Solver
