import Optimization.Proofs.Orchestration

/-!
# Solves beside each other

A solve takes its solver, makes a problem of its own and gives both back, whatever its sink does in
between. Solvers that are at work and problems that were there before stay as they are, so that a
solve within a line of another one does not get in the way of that one.

* `Respects` : what a solve leaves alone;
* `Working`, `AtWork` : where a solve stands between two steps;
* `Alike` : two actions have the same run from all workspaces of a kind, and lead there again;
* `solve_matched` : sinks that are alike while a solve is at work lead to the same run, which
  respects everything else.
-/

namespace Optimization.Solver

/-! ### What is left alone -/

/-- A solver is still there, with its parameters and as busy as before. Nothing of it has changed
if it is busy. -/
def KeptSolver (s : Ref Solver) (w w' : Workspace) : Prop :=
  ∀ σ, w.solvers.get? s = some σ → ∃ b, w'.solvers.get? s = some { σ with mixedInteger := b } ∧
    (σ.busy = true → b = σ.mixedInteger)

/-- Problems that were there are as they were, and no engine was called on them. -/
structure KeptProblems (w w' : Workspace) : Prop where
  size : w.problems.next.index ≤ w'.problems.next.index
  problem : ∀ p, (w.problems.get? p).isSome → w'.problems.get? p = w.problems.get? p
  calls : ∀ p, (w.problems.get? p).isSome ∨ w'.problems.get? p = none →
    callsOn p w' = callsOn p w

/-- Solvers and problems are left alone. -/
structure Respects (w w' : Workspace) : Prop where
  solvers : ∀ s, KeptSolver s w w'
  problems : KeptProblems w w'

section

variable {s : Ref Solver} {r : Ref Model} {p : Ref Lifetime} {w v v' : Workspace} {σ : Solver}

theorem KeptSolver.of_eq (h : v.solvers.get? s = w.solvers.get? s) : KeptSolver s w v :=
  fun σ hσ => ⟨σ.mixedInteger, h.trans hσ, fun _ => rfl⟩

theorem KeptSolver.trans (h : KeptSolver s w v) (h' : KeptSolver s v v') : KeptSolver s w v' := by
  intro σ hσ
  obtain ⟨b, hb, hsame⟩ := h σ hσ
  obtain ⟨b', hb', hsame'⟩ := h' _ hb
  exact ⟨b', hb', fun hbusy => (hsame' hbusy).trans (hsame hbusy)⟩

theorem KeptProblems.refl (w : Workspace) : KeptProblems w w :=
  ⟨Nat.le_refl _, fun _ _ => rfl, fun _ _ => rfl⟩

theorem KeptProblems.there (h : KeptProblems w v) (hp : (w.problems.get? p).isSome) :
    (v.problems.get? p).isSome := by
  rw [h.problem p hp]
  exact hp

theorem KeptProblems.trans (h : KeptProblems w v) (h' : KeptProblems v v') :
    KeptProblems w v' where
  size := Nat.le_trans h.size h'.size
  problem p hp := (h'.problem p (h.there hp)).trans (h.problem p hp)
  calls p hp := by
    rcases hp with hp | hp
    · exact (h'.calls p (.inl (h.there hp))).trans (h.calls p (.inl hp))
    · have hv : v.problems.get? p = none := by
        by_contra hne
        have hthere := h'.there (Option.isSome_iff_ne_none.2 hne)
        rw [hp] at hthere
        cases hthere
      exact (h'.calls p (.inr hp)).trans (h.calls p (.inr hv))

theorem KeptProblems.of_eq (hp : v.problems = w.problems) (hc : v.calls = w.calls) :
    KeptProblems w v where
  size := hp ▸ Nat.le_refl _
  problem _ _ := by rw [hp]
  calls _ _ := by rw [callsOn, callsOn, hc]

theorem Respects.refl (w : Workspace) : Respects w w :=
  ⟨fun _ => .of_eq rfl, .refl w⟩

theorem Respects.trans (h : Respects w v) (h' : Respects v v') : Respects w v' :=
  ⟨fun s => (h.solvers s).trans (h'.solvers s), h.problems.trans h'.problems⟩

/-- What looks at other parts of the workspace respects everything. -/
theorem Respects.of_eq (hs : v.solvers = w.solvers) (hp : v.problems = w.problems)
    (hc : v.calls = w.calls) : Respects w v :=
  ⟨fun _ => .of_eq (by rw [hs]), .of_eq hp hc⟩

theorem get?_of_busy (h : (w.solvers.get s).busy = true) :
    w.solvers.get? s = some (w.solvers.get s) := by
  cases hs : w.solvers.get? s with
  | some σ => rw [Store.get_of_get? hs]
  | none =>
    rw [Store.get, hs] at h
    cases h

/-- A busy solver is left exactly as it is. -/
theorem Respects.busy (h : Respects w v) (hbusy : (w.solvers.get s).busy = true) :
    v.solvers.get? s = w.solvers.get? s := by
  have hs := get?_of_busy hbusy
  obtain ⟨b, hb, hsame⟩ := h.solvers s _ hs
  rw [hb, hs, hsame hbusy]

/-- A solve whose solver is busy is left alone when its model is. -/
theorem Respects.untouched (h : Respects w v) (hbusy : (w.solvers.get s).busy = true)
    (hsame : SameModel r w v) : Untouched s r p w v where
  same := hsame
  solver := h.busy hbusy
  size := h.problems.size
  problem := h.problems.problem p
  calls := h.problems.calls p

/-! ### A solve at work -/

/-- Where a solve that began at `w` stands: its solver is taken, and the rest is left alone. -/
structure Working (s : Ref Solver) (w v : Workspace) : Prop where
  solver : ∃ σ b, w.solvers.get? s = some σ ∧
    v.solvers.get? s = some { σ with busy := true, mixedInteger := b }
  others : ∀ s', s' ≠ s → KeptSolver s' w v
  problems : KeptProblems w v

theorem Working.busy (h : Working s w v) : (v.solvers.get s).busy = true := by
  obtain ⟨σ, b, -, hb⟩ := h.solver
  rw [Store.get_of_get? hb]

theorem Working.respects (h : Working s w v) (h' : Respects v v') : Working s w v' where
  solver := by
    obtain ⟨σ, b, hσ, hb⟩ := h.solver
    exact ⟨σ, b, hσ, (h'.busy h.busy).trans hb⟩
  others s' hs' := (h.others s' hs').trans (h'.solvers s')
  problems := h.problems.trans h'.problems

/-- A solver is taken. -/
theorem Working.begin (hs : w.solvers.get? s = some σ) :
    Working s w (change s (fun x => { x with busy := true }) w) where
  solver := by
    refine ⟨σ, σ.mixedInteger, hs, ?_⟩
    rw [change, Store.get?_put_self hs, Store.get_of_get? hs]
  others s' hs' := .of_eq (Store.get?_put_of_ne _ hs')
  problems := .of_eq rfl rfl

theorem Working.setMixed (h : Working s w v) (b : Bool) :
    Working s w (change s (fun x => { x with mixedInteger := b }) v) where
  solver := by
    obtain ⟨σ, b', hσ, hb'⟩ := h.solver
    refine ⟨σ, b, hσ, ?_⟩
    rw [change, Store.get?_put_self hb', Store.get_of_get? hb']
  others s' hs' := (h.others s' hs').trans (.of_eq (Store.get?_put_of_ne _ hs'))
  problems := h.problems.trans (.of_eq rfl rfl)

/-- A solver that was idle is given back. -/
theorem Working.finish (h : Working s w v) (hs : w.solvers.get? s = some σ)
    (hidle : σ.busy = false) :
    Respects w (change s (fun x => { x with busy := false }) v) where
  solvers s' := by
    by_cases hs' : s' = s
    · subst hs'
      intro σ' hσ'
      obtain ⟨τ, b, hτ, hb⟩ := h.solver
      rw [hs, Option.some.injEq] at hσ' hτ
      subst hσ' hτ
      refine ⟨b, ?_, fun hbusy => ?_⟩
      · rw [change, Store.get?_put_self hb, Store.get_of_get? hb, ← hidle]
      · rw [hidle] at hbusy
        cases hbusy
    · exact (h.others s' hs').trans (.of_eq (Store.get?_put_of_ne _ hs'))
  problems := h.problems.trans (.of_eq rfl rfl)

/-! ### The problem of a solve -/

theorem KeptProblems.push (h : KeptProblems w v) (x : Lifetime) :
    KeptProblems w { v with problems := v.problems.push x } := by
  refine h.trans ⟨?_, fun p hp => Store.get?_push x hp, fun _ _ => rfl⟩
  simp [Store.next, Store.push]

theorem KeptProblems.put (h : KeptProblems w v) (hp : w.problems.get? p = none) (x : Lifetime) :
    KeptProblems w { v with problems := v.problems.put p x } where
  size := by
    rw [Store.next_put]
    exact h.size
  problem p' hp' := by
    have hne : p' ≠ p := by
      rintro rfl
      rw [hp] at hp'
      cases hp'
    exact (Store.get?_put_of_ne x hne).trans (h.problem p' hp')
  calls p' hp' := by
    refine h.calls p' (hp'.imp_right fun hnone => ?_)
    rw [← Option.not_isSome_iff_eq_none] at hnone ⊢
    exact fun hthere => hnone ((Store.isSome_get?_put x).trans hthere)

/-- Calls on a new problem are not calls on those that were there. -/
theorem KeptProblems.call (h : KeptProblems w v) (hp : w.problems.get? p = none)
    (hthere : (v.problems.get? p).isSome) (method : Method) (code : Int) :
    KeptProblems w { v with calls := v.calls ++ [⟨p, method, code⟩] } where
  size := h.size
  problem := h.problem
  calls p' hp' := by
    have hne : p ≠ p' := by
      rintro rfl
      rcases hp' with hp' | hp'
      · rw [hp] at hp'
        cases hp'
      · rw [show v.problems.get? p = none from hp'] at hthere
        cases hthere
    refine Eq.trans ?_ (h.calls p' hp')
    simp [callsOn, hne]

theorem Working.with_problems (h : Working s w v) (hs : v'.solvers = v.solvers)
    (hp : KeptProblems w v') : Working s w v' where
  solver := by
    rw [hs]
    exact h.solver
  others s' hs' := (h.others s' hs').trans (.of_eq (by rw [hs]))
  problems := hp

/-- Steps that leave solvers and problems alone. -/
theorem Working.of_eq (h : Working s w v) (hs : v'.solvers = v.solvers)
    (hp : v'.problems = v.problems) (hc : v'.calls = v.calls) : Working s w v' :=
  h.respects (.of_eq hs hp hc)

end

/-! ### Alike actions -/

/-- From a workspace two actions have the same run, after which `I` holds, whatever the outcome. -/
structure AlikeAt {α : Type} (I : Workspace → Prop) (x y : Action α) (v : Workspace) : Prop where
  run : x.run v = y.run v
  after : I (x.after v)

/-- Two actions are alike wherever `I` holds. -/
def Alike {α : Type} (I : Workspace → Prop) (x y : Action α) : Prop := ∀ v, I v → AlikeAt I x y v

section

variable {α β : Type} {I : Workspace → Prop} {x y : Action α} {f g : α → Action β}
  {v v' : Workspace}

/-- A step whose run is known. -/
theorem AlikeAt.step {a : α} (h : x.run v = (.ok a, v')) (hf : AlikeAt I (f a) (g a) v') :
    AlikeAt I (x >>= f) (x >>= g) v := by
  obtain ⟨heq, hafter⟩ := hf
  unfold Action.after at hafter
  constructor
  · rw [Action.run_bind_of_ok _ h, Action.run_bind_of_ok _ h, heq]
  · rw [Action.after, Action.run_bind_of_ok _ h]
    exact hafter

/-- A step that is refused. -/
theorem AlikeAt.refused {fault : Fault} (h : x.run v = (.error fault, v')) (hv : I v') :
    AlikeAt I (x >>= f) (x >>= g) v := by
  constructor
  · rw [Action.run_bind_of_error _ h, Action.run_bind_of_error _ h]
  · rw [Action.after, Action.run_bind_of_error _ h]
    exact hv

theorem AlikeAt.bind (hx : AlikeAt I x y v) (hf : ∀ a, Alike I (f a) (g a)) :
    AlikeAt I (x >>= f) (y >>= g) v := by
  obtain ⟨heq, hafter⟩ := hx
  rcases hrun : x.run v with ⟨fault | a, v'⟩ <;> rw [Action.after, hrun] at hafter <;>
    rw [hrun] at heq
  · constructor
    · rw [Action.run_bind_of_error _ hrun, Action.run_bind_of_error _ heq.symm]
    · rw [Action.after, Action.run_bind_of_error _ hrun]
      exact hafter
  · obtain ⟨hrest, hdone⟩ := hf a v' hafter
    constructor
    · rw [Action.run_bind_of_ok _ hrun, Action.run_bind_of_ok _ heq.symm, hrest]
    · rw [Action.after, Action.run_bind_of_ok _ hrun]
      exact hdone

theorem Alike.bind (hx : Alike I x y) (hf : ∀ a, Alike I (f a) (g a)) :
    Alike I (x >>= f) (y >>= g) :=
  fun v hv => (hx v hv).bind hf

/-- An action that keeps `I` is like itself. -/
theorem Alike.self (h : ∀ v, I v → I (x.after v)) : Alike I x x := fun v hv => ⟨rfl, h v hv⟩

theorem Alike.of (a : Except Fault α) : Alike I (.of a) (.of a) := .self fun _ hv => hv

theorem Alike.pure (a : α) : Alike I (Pure.pure a) (Pure.pure a) := .self fun _ hv => hv

theorem Alike.forM {ι : Type} {f g : ι → Action PUnit} (hf : ∀ i, Alike I (f i) (g i))
    (xs : List ι) : Alike I (xs.forM f) (xs.forM g) := by
  induction xs with
  | nil => exact .pure _
  | cons i xs ih => exact (hf i).bind fun _ => ih

end

/-! ### The steps of a solve -/

/-- What is known of models, constraints and bounds outlasts the steps of a solve of a model. -/
structure Stable (r : Ref Model) (K : Workspace → Prop) : Prop where
  same : ∀ {v v'}, K v → v'.models = v.models → v'.constraints = v.constraints →
    v'.intervals = v.intervals → K v'
  translate : ∀ {v} values q, K v → K ((Translation.translate (v.models.get r) values q).after v)

/-- While a solve is at work, two sinks do the same with each line, and leave the rest alone. -/
def Matching (s : Ref Solver) (w : Workspace) (K : Workspace → Prop) (sink sink' : Option Sink) :
    Prop :=
  ∀ line v, Working s w v → K v → (write sink line).run v = (write sink' line).run v ∧
    Respects v ((write sink line).after v) ∧ K ((write sink line).after v)

/-- Between two steps of a solve whose problem stands in the cell `p`. -/
structure AtWork (s : Ref Solver) (w : Workspace) (K : Workspace → Prop) (p : Ref Lifetime)
    (v : Workspace) : Prop where
  working : Working s w v
  known : K v
  fresh : w.problems.get? p = none
  there : (v.problems.get? p).isSome

section

variable {engine : Engine} {sink sink' : Option Sink} {s : Ref Solver} {r : Ref Model}
  {w v : Workspace} {K : Workspace → Prop} {p : Ref Lifetime} {σ : Solver}

/-- A translation changes bounds and the journal at most. -/
theorem translate_after (m : Model) (values : Overrides) (q : Problem) (v : Workspace) :
    ∃ intervals journal, (Translation.translate m values q).after v =
      { v with intervals, journal } := by
  obtain ⟨journal, hrun⟩ := Overrides.during_run values m.decisions
    (fun s => Translation.columns m s q) v
  unfold Action.after Translation.translate
  cases hcolumns : Overrides.underway values m.decisions v.intervals
    fun s => Translation.columns m s q with
  | error fault =>
    rw [hcolumns] at hrun
    rw [Action.run_bind_of_error _ hrun]
    exact ⟨_, journal, rfl⟩
  | ok pm =>
    rw [hcolumns] at hrun
    rw [Action.run_bind_of_ok _ hrun]
    exact ⟨_, journal, rfl⟩

theorem AtWork.of_eq (hK : Stable r K) (h : AtWork s w K p v) {v' : Workspace}
    (hs : v'.solvers = v.solvers) (hp : v'.problems = v.problems) (hc : v'.calls = v.calls)
    (hm : v'.models = v.models) (hcs : v'.constraints = v.constraints)
    (hi : v'.intervals = v.intervals) : AtWork s w K p v' :=
  ⟨h.working.of_eq hs hp hc, hK.same h.known hm hcs hi, h.fresh, hp ▸ h.there⟩

theorem AtWork.put (hK : Stable r K) (h : AtWork s w K p v) (x : Lifetime) :
    AtWork s w K p { v with problems := v.problems.put p x } where
  working := h.working.with_problems rfl (h.working.problems.put h.fresh x)
  known := hK.same h.known rfl rfl rfl
  fresh := h.fresh
  there := (Store.isSome_get?_put x).trans h.there

/-! Steps without a sink keep what holds between two steps. -/

theorem note_alike (hK : Stable r K) (severity : Severity) (origin : Origin) (text : String) :
    Alike (AtWork s w K p) (.note severity origin text) (.note severity origin text) :=
  .self fun _ h => h.of_eq hK rfl rfl rfl rfl rfl rfl

theorem live_after (p : Ref Lifetime) (v : Workspace) : (Problem.live p).after v = v := by
  unfold Action.after
  by_cases h : ∃ q, v.problems.get? p = some (.live q)
  · obtain ⟨q, hq⟩ := h
    rw [Problem.live_run hq]
  · rw [Problem.live_run_of_not_live h]

theorem live_alike {I : Workspace → Prop} (p : Ref Lifetime) :
    Alike I (Problem.live p) (Problem.live p) :=
  .self fun v hv => (live_after p v).symm ▸ hv

theorem store_alike (hK : Stable r K) (q : Problem) :
    Alike (AtWork s w K p) (Problem.store p q) (Problem.store p q) :=
  .self fun _ h => h.put hK (.live q)

theorem change_alike (hK : Stable r K) (f : Problem → Problem) :
    Alike (AtWork s w K p) (Problem.change p f) (Problem.change p f) :=
  (live_alike p).bind fun _ => store_alike hK _

theorem recordCall_alike (hK : Stable r K) (method : Method) (run : Run) :
    Alike (AtWork s w K p) (Problem.recordCall p method run) (Problem.recordCall p method run) :=
  .self fun _ h =>
    { h with
      working := h.working.with_problems rfl
        (h.working.problems.call h.fresh h.there method run.code)
      known := hK.same h.known rfl rfl rfl }

theorem simplex_alike (hK : Stable r K) (engine : Engine) (control : SimplexControl) :
    Alike (AtWork s w K p) (Problem.simplex engine control p) (Problem.simplex engine control p) :=
  (live_alike p).bind fun _ => (recordCall_alike hK _ _).bind fun _ =>
    (change_alike hK _).bind fun _ => .pure _

theorem search_alike (hK : Stable r K) (engine : Engine) (control : SearchControl) :
    Alike (AtWork s w K p) (Problem.search engine control p) (Problem.search engine control p) :=
  (live_alike p).bind fun _ => (recordCall_alike hK _ _).bind fun _ =>
    (change_alike hK _).bind fun _ => .pure _

theorem loadArrays_alike (hK : Stable r K) (arrays : ParallelArrays) :
    Alike (AtWork s w K p) (Problem.loadArrays p arrays) (Problem.loadArrays p arrays) := by
  refine (live_alike p).bind fun q => ?_
  by_cases h : (arrays.rows.length != arrays.coefficients.length ||
      arrays.columns.length != arrays.coefficients.length) = true
  · simp only [h, if_true]
    exact .of (.error .unequalLengths)
  · simp only [h]
    exact store_alike hK _

/-! Steps with a sink are alike when the sinks match. -/

theorem write_alike (hmatch : Matching s w K sink sink') (line : String) :
    Alike (AtWork s w K p) (write sink line) (write sink' line) := by
  intro v h
  obtain ⟨heq, hrespects, hknown⟩ := hmatch line v h.working h.known
  exact ⟨heq, h.working.respects hrespects, hknown, h.fresh, hrespects.problems.there h.there⟩

theorem writeSummary_alike (hK : Stable r K) (hmatch : Matching s w K sink sink')
    (t : Translation) :
    Alike (AtWork s w K p) (writeSummary sink r t) (writeSummary sink' r t) := by
  have hmodel : Alike (AtWork s w K p) (Modeling.model r) (Modeling.model r) := .self fun _ h => h
  exact hmodel.bind fun _ => (Alike.forM (write_alike hmatch) _).bind fun _ =>
    hmodel.bind fun _ => note_alike hK _ _ _

theorem finishRun_alike (hK : Stable r K) (hmatch : Matching s w K sink sink') (method : String)
    (run : Run) :
    Alike (AtWork s w K p) (finishRun sink method run) (finishRun sink' method run) := by
  refine (Alike.forM (write_alike hmatch) _).bind fun _ => ?_
  by_cases hcode : run.code = 0
  · simp only [hcode, if_true]
    exact .pure true
  · simp only [hcode, if_false]
    refine Alike.bind ?_ fun _ => .pure false
    exact (note_alike hK _ _ _).bind fun _ => write_alike hmatch _

theorem state_alike {I : Workspace → Prop} (s : Ref Solver) : Alike I (state s) (state s) :=
  .self fun _ h => h

theorem runSimplex_alike (hK : Stable r K) (hmatch : Matching s w K sink sink') :
    Alike (AtWork s w K p) (runSimplex engine sink s p) (runSimplex engine sink' s p) :=
  (state_alike s).bind fun _ => (Alike.of _).bind fun _ => (simplex_alike hK engine _).bind fun _ =>
    (finishRun_alike hK hmatch _ _).bind fun _ => .pure _

theorem runSearch_alike (hK : Stable r K) (hmatch : Matching s w K sink sink') :
    Alike (AtWork s w K p) (runSearch engine sink s p) (runSearch engine sink' s p) :=
  (state_alike s).bind fun _ => (Alike.of _).bind fun _ => (search_alike hK engine _).bind fun _ =>
    (finishRun_alike hK hmatch _ _).bind fun _ => .pure _

theorem runEngine_alike (hK : Stable r K) (hmatch : Matching s w K sink sink') (t : Translation) :
    Alike (AtWork s w K p) (runEngine engine sink s p t) (runEngine engine sink' s p t) := by
  refine (Alike.of _).bind fun arrays => (loadArrays_alike hK arrays).bind fun _ =>
    (runSimplex_alike hK hmatch).bind ?_
  rintro ⟨good, relaxation⟩
  cases good with
  | false => exact .pure none
  | true =>
    cases hmixed : t.mixedInteger with
    | false => exact .pure _
    | true => exact (runSearch_alike hK hmatch).bind fun _ => .pure _

/-- **What a solve does with its problem is the same for matching sinks.** -/
theorem solveIn_alike (engine : Engine) (hK : Stable r K) (hmatch : Matching s w K sink sink')
    (values : Overrides) :
    Alike (AtWork s w K p) (solveIn engine sink s r values p)
      (solveIn engine sink' s r values p) := by
  intro v h
  have hmodel : (Modeling.model r).run v = (.ok (v.models.get r), v) := rfl
  refine .step hmodel ?_
  by_cases hlive : ∃ q, v.problems.get? p = some (.live q)
  · obtain ⟨q, hq⟩ := hlive
    refine .step (Problem.live_run hq) ?_
    obtain ⟨intervals, journal, hafter⟩ := translate_after (v.models.get r) values q v
    have hworking : Working s w ((Translation.translate (v.models.get r) values q).after v) :=
      h.working.of_eq (by rw [hafter]) (by rw [hafter]) (by rw [hafter])
    have htranslate : AtWork s w K p ((Translation.translate (v.models.get r) values q).after v) :=
      ⟨hworking, hK.translate values q h.known, h.fresh, by
        rw [hafter]
        exact h.there⟩
    refine AlikeAt.bind ⟨rfl, htranslate⟩ ?_
    rintro ⟨problem, t⟩
    refine (store_alike hK problem).bind fun _ => (writeSummary_alike hK hmatch t).bind fun _ =>
      (write_alike hmatch _).bind fun _ => (runEngine_alike hK hmatch t).bind ?_
    rintro (_ | seconds)
    · exact .pure none
    · refine (live_alike p).bind fun _ => (state_alike s).bind fun _ => ?_
      exact Alike.bind (.self fun _ h => h) fun _ => .pure _
  · exact .refused (Problem.live_run_of_not_live hlive) h

/-! ### The whole -/

/-- Between two steps of a solve that has no problem yet. -/
def Taken (s : Ref Solver) (w : Workspace) (K : Workspace → Prop) (v : Workspace) : Prop :=
  Working s w v ∧ K v

theorem release_eq (p : Ref Lifetime) (v : Workspace) :
    ∃ x deletions, Problem.release p v = { v with problems := v.problems.put p x, deletions } := by
  unfold Problem.release
  split
  · exact ⟨_, _, rfl⟩
  · next hfreed => exact ⟨v.problems.get p, v.deletions, by rw [Store.put_get]⟩

theorem AtWork.release (hK : Stable r K) (h : AtWork s w K p v) :
    Taken s w K (Problem.release p v) := by
  obtain ⟨x, deletions, hrelease⟩ := release_eq p v
  rw [hrelease]
  have hput := h.put hK x
  exact ⟨hput.working.of_eq rfl rfl rfl, hK.same h.known rfl rfl rfl⟩

/-- A solve makes its problem, works with it and frees it. -/
theorem ownProblem_alike (hK : Stable r K) (hmatch : Matching s w K sink sink')
    (values : Overrides) (name : Scalar)
    {rest : Option (Solution × Float) → Action (Option Solution)}
    (hrest : ∀ found, Alike (Taken s w K) (rest found) (rest found)) :
    Alike (Taken s w K)
      (Problem.create name >>= fun p =>
        Problem.within p (solveIn engine sink s r values p) >>= rest)
      (Problem.create name >>= fun p =>
        Problem.within p (solveIn engine sink' s r values p) >>= rest) := by
  rintro v ⟨hworking, hknown⟩
  have hcreate := create_run name v
  cases hnamed : named name with
  | error fault =>
    rw [hnamed] at hcreate
    exact .refused hcreate ⟨hworking.with_problems rfl (hworking.problems.push _),
      hK.same hknown rfl rfl rfl⟩
  | ok q =>
    rw [hnamed] at hcreate
    refine .step hcreate ?_
    have hwork : AtWork s w K v.problems.next
        { v with problems := v.problems.push (.live q) } :=
      ⟨hworking.with_problems rfl (hworking.problems.push _), hK.same hknown rfl rfl rfl,
        Array.getElem?_eq_none hworking.problems.size, by rw [Store.get?_push_next]; rfl⟩
    obtain ⟨heq, hafter⟩ := solveIn_alike engine hK hmatch values _ hwork
    refine AlikeAt.bind ⟨?_, ?_⟩ hrest
    · rw [Problem.within, Problem.within, Action.run_ensuring, Action.run_ensuring, heq]
    · exact hafter.release hK

theorem solveTaken_alike (engine : Engine) (hK : Stable r K)
    (hmatch : Matching s w K sink sink') (values : Overrides) :
    Alike (Taken s w K) (solveTaken engine sink s r values)
      (solveTaken engine sink' s r values) := by
  have hself : ∀ {α : Type} {x : Action α}, (∀ v, Taken s w K v → Taken s w K (x.after v)) →
    Alike (Taken s w K) x x := Alike.self
  refine Alike.bind (hself fun _ h => h) fun m => Alike.bind (hself fun _ h => h) fun u => ?_
  refine (Alike.of _).bind fun _ => Alike.bind (hself fun v h => ?_) fun _ => ?_
  · exact ⟨h.1.setMixed _, hK.same h.2 rfl rfl rfl⟩
  refine Alike.bind (fun v h => ?_) fun _ => Alike.bind (hself fun _ h => h) fun m =>
    ownProblem_alike hK hmatch values _ ?_
  · obtain ⟨heq, hrespects, hknown⟩ := hmatch _ v h.1 h.2
    exact ⟨heq, h.1.respects hrespects, hknown⟩
  · rintro (_ | ⟨found, seconds⟩)
    · exact .pure none
    · refine Alike.bind (hself fun v h => ?_) fun _ => .pure _
      exact ⟨h.1.of_eq rfl rfl rfl, hK.same h.2 rfl rfl rfl⟩

/-- An idle solver is taken, and given back whatever becomes of the solve. -/
theorem solve_run_of_idle (engine : Engine) (sink : Option Sink) (values : Overrides)
    (hidle : (w.solvers.get s).busy = false) :
    (solve engine sink s (some r) values).run w =
      ((solveTaken engine sink s r values).ensuring
        (change s fun x => { x with busy := false })).run
          (change s (fun x => { x with busy := true }) w) := by
  simp only [solve]
  rw [Action.run_bind_of_ok _ (state_run s w), hidle]
  rfl

/-- **Matching sinks lead to the same solve, which leaves all solvers and all other problems
alone.** -/
theorem solve_matched (engine : Engine) (hs : w.solvers.get? s = some σ) (hidle : σ.busy = false)
    (hK : Stable r K) (hw : K w) (hmatch : Matching s w K sink sink') (values : Overrides) :
    (solve engine sink s (some r) values).run w = (solve engine sink' s (some r) values).run w ∧
      Respects w ((solve engine sink s (some r) values).after w) := by
  have hidle' : (w.solvers.get s).busy = false := by rw [Store.get_of_get? hs, hidle]
  obtain ⟨heq, hafter⟩ := solveTaken_alike engine hK hmatch values
    (change s (fun x => { x with busy := true }) w)
    ⟨.begin hs, hK.same hw rfl rfl rfl⟩
  constructor
  · rw [solve_run_of_idle engine sink values hidle', solve_run_of_idle engine sink' values hidle',
      Action.run_ensuring, Action.run_ensuring, heq]
  · rw [Action.after, solve_run_of_idle engine sink values hidle', Action.run_ensuring]
    exact hafter.1.finish hs hidle

end

end Optimization.Solver
