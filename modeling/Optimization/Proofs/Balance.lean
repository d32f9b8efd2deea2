import Optimization.Proofs.Freeing
import Optimization.Proofs.Interference
import Optimization.Proofs.Refusals

/-!
# Problems that calls leave behind

A call that solves or loads a model makes a problem of its own and frees it at the end. Whatever
comes of the call, the problems that live after it are those that lived before it, and the ones
made meanwhile were deleted once each. The exception is a solve of a model whose name is refused:
its problem is made before the name is read, and nothing frees it.

* `Leaves left w v` : the account between `w` and `v`, of which one problem may be left;
* `leaves_adopt`, `leaves_release` : where a problem is owed, and where it is paid;
* `Loading.load_leaves` : a load leaves nothing behind;
* `Solver.solve_leaves`, `Solver.solve_leaks` : a solve leaves nothing behind when the name of the
  model is accepted, and its problem when it is refused;
* `no_problem_outlives` : both, for models whose names are accepted.
-/

namespace Optimization

open Optimization.Action (Along Steady)

/-- A problem lives in a cell. -/
def IsLive (w : Workspace) (q : Ref Lifetime) : Prop := ∃ p, w.problems.get? q = some (.live p)

/-- What became of problems between two workspaces: cells stay, the live problems are those from
before and the one that is left, and all others that were made were deleted once. Models keep their
names. -/
structure Leaves (left : Option (Ref Lifetime)) (w v : Workspace) : Prop where
  cells : ∀ q, (w.problems.get? q).isSome → (v.problems.get? q).isSome
  made : ∀ q, left = some q → w.problems.get? q = none
  live : ∀ q, IsLive v q ↔ IsLive w q ∨ left = some q
  deletions : ∃ ds, v.deletions = w.deletions ++ ds ∧ ds.Nodup ∧ ∀ q, q ∈ ds ↔
    (w.problems.get? q = none ∧ (v.problems.get? q).isSome) ∧ left ≠ some q
  names : ∀ r m, w.models.get? r = some m → ∃ m', v.models.get? r = some m' ∧ m'.name = m.name

section

variable {left : Option (Ref Lifetime)} {p : Ref Lifetime} {q : Problem} {u v w : Workspace}

/-! ### The account -/

theorem leaves_of_names (hproblems : v.problems = w.problems) (hdeletions : v.deletions = w.deletions)
    (hnames : ∀ r m, w.models.get? r = some m →
      ∃ m', v.models.get? r = some m' ∧ m'.name = m.name) : Leaves none w v where
  cells _ h := hproblems ▸ h
  made := nofun
  live q := by simp [IsLive, hproblems]
  deletions := by
    refine ⟨[], by rw [hdeletions, List.append_nil], List.nodup_nil, fun q => ?_⟩
    rw [hproblems]
    constructor
    · intro h
      cases h
    · rintro ⟨⟨hnone, hsome⟩, -⟩
      rw [hnone] at hsome
      cases hsome
  names := hnames

theorem leaves_of_eq (hproblems : v.problems = w.problems) (hdeletions : v.deletions = w.deletions)
    (hmodels : v.models = w.models) : Leaves none w v :=
  leaves_of_names hproblems hdeletions fun _ m hm => ⟨m, hmodels ▸ hm, rfl⟩

theorem IsLive.isSome (h : IsLive w p) : (w.problems.get? p).isSome := by
  obtain ⟨q, hq⟩ := h
  rw [hq]
  rfl

/-- Two accounts one after the other, of which one leaves nothing. -/
theorem Leaves.append {left' : Option (Ref Lifetime)} (h : Leaves left w v) (h' : Leaves left' v u)
    (hone : left = none ∨ left' = none) : Leaves (left.or left') w u := by
  have hor : ∀ q, left.or left' = some q ↔ left = some q ∨ left' = some q := by
    intro q
    rcases hone with rfl | rfl <;> simp
  have hback : ∀ q, v.problems.get? q = none → w.problems.get? q = none := by
    intro q hq
    by_contra hw
    have hsome := h.cells q (Option.isSome_iff_ne_none.2 hw)
    rw [hq] at hsome
    cases hsome
  refine ⟨fun q hq => h'.cells q (h.cells q hq), fun q hq => ?_, fun q => ?_, ?_, fun r m hm => ?_⟩
  · exact ((hor q).1 hq).elim (h.made q) fun hq => hback q (h'.made q hq)
  · rw [h'.live, h.live, hor, or_assoc]
  · obtain ⟨ds, hds, hnodup, hmem⟩ := h.deletions
    obtain ⟨es, hes, hnodup', hmem'⟩ := h'.deletions
    refine ⟨ds ++ es, by rw [hes, hds, List.append_assoc], ?_, fun q => ?_⟩
    · -- a problem is made before `v` or after it
      refine List.nodup_append.2 ⟨hnodup, hnodup', ?_⟩
      rintro q hq _ hq' rfl
      have hsome := ((hmem q).1 hq).1.2
      rw [((hmem' q).1 hq').1.1] at hsome
      cases hsome
    · rw [List.mem_append, hmem, hmem', ne_eq, ne_eq, ne_eq, hor, not_or]
      cases hv : v.problems.get? q with
      | none =>
        have hnew : left ≠ some q := by
          intro hleft
          have hlive : IsLive v q := (h.live q).2 (.inr hleft)
          have hsome := hlive.isSome
          rw [hv] at hsome
          cases hsome
        simp [hback q hv, hnew]
      | some x =>
        have hsome : (u.problems.get? q).isSome := h'.cells q (by rw [hv]; rfl)
        have hold : left' ≠ some q := by
          intro hleft
          rw [h'.made q hleft] at hv
          cases hv
        simp [hsome, hold]
  · obtain ⟨m', hm', hname⟩ := h.names r m hm
    obtain ⟨m'', hm'', hname'⟩ := h'.names r m' hm'
    exact ⟨m'', hm'', hname'.trans hname⟩

theorem Leaves.trans (h : Leaves left w v) (h' : Leaves none v u) : Leaves left w u :=
  Option.or_none (o := left) ▸ h.append h' (.inr rfl)

instance leaves_steady : Steady (Leaves none) where
  refl _ := leaves_of_eq rfl rfl rfl
  trans := Leaves.trans

/-- A new problem is owed. -/
theorem leaves_adopt (hproblems : v.problems = w.problems.push (.live q))
    (hdeletions : v.deletions = w.deletions) (hmodels : v.models = w.models) :
    Leaves (some w.problems.next) w v where
  cells c hc := by
    rw [hproblems, Store.get?_push _ hc]
    exact hc
  made := by
    rintro c ⟨⟩
    exact Store.get?_next _
  live c := by
    unfold IsLive
    rw [hproblems]
    by_cases hc : c = w.problems.next
    · subst hc
      simp
    · rw [Store.get?_push_of_ne _ hc]
      simp [Ne.symm hc]
  deletions := by
    refine ⟨[], by rw [hdeletions, List.append_nil], List.nodup_nil, fun c => ?_⟩
    rw [hproblems]
    by_cases hc : c = w.problems.next
    · simp [hc]
    · rw [Store.get?_push_of_ne _ hc]
      cases w.problems.get? c <;> simp
  names _ m hm := ⟨m, hmodels ▸ hm, rfl⟩

/-- A problem that is freed is not owed any more. -/
theorem leaves_release (h : Leaves (some p) w v) : Leaves none w (Problem.release p v) := by
  obtain ⟨x, hx⟩ : IsLive v p := (h.live p).2 (.inr rfl)
  have hself := Store.get?_put_self (x := Lifetime.freed) hx
  rw [Problem.release_of_live hx]
  refine ⟨fun c hc => ?_, nofun, fun c => ?_, ?_, h.names⟩
  · exact (Store.isSome_get?_put _).trans (h.cells c hc)
  · by_cases hc : c = p
    · subst hc
      simp [IsLive, hself, h.made c rfl]
    · have hlive := h.live c
      simp only [Option.some.injEq, Ne.symm hc, or_false] at hlive
      simpa [IsLive, Store.get?_put_of_ne _ hc] using hlive
  · obtain ⟨ds, hds, hnodup, hmem⟩ := h.deletions
    have hp : p ∉ ds := fun hp => ((hmem p).1 hp).2 rfl
    refine ⟨ds ++ [p], by rw [hds, List.append_assoc], ?_, fun c => ?_⟩
    · exact List.nodup_append.2 ⟨hnodup, List.nodup_singleton p, by
        rintro c hc _ hc' rfl
        exact hp (List.mem_singleton.1 hc' ▸ hc)⟩
    · rw [List.mem_append, List.mem_singleton]
      by_cases hc : c = p
      · subst hc
        simp [h.made c rfl, hself]
      · rw [Store.get?_put_of_ne _ hc, hmem]
        simp [hc, Ne.symm hc]

/-! ### Actions on the problem of a call -/

theorem leaves_of_stillLive (hp : IsLive w p) (h : Problem.StillLive p w v) : Leaves none w v := by
  have hsome : ∀ c, (v.problems.get? c).isSome = (w.problems.get? c).isSome := by
    intro c
    by_cases hc : c = p
    · subst hc
      have hlive : IsLive v c := h.live
      rw [hlive.isSome, hp.isSome]
    · rw [h.others c hc]
  refine ⟨fun c hc => (hsome c).trans hc, nofun, fun c => ?_, ?_, fun _ m hm => ?_⟩
  · by_cases hc : c = p
    · subst hc
      exact ⟨fun _ => .inl hp, fun _ => h.live⟩
    · simp [IsLive, h.others c hc]
  · refine ⟨[], by rw [h.deletions, List.append_nil], List.nodup_nil, fun c => ?_⟩
    rw [hsome c]
    cases w.problems.get? c <;> simp
  · exact ⟨m, h.models ▸ hm, rfl⟩

/-- An action that needs a live problem and spares it. -/
theorem leaves_of_spares {α : Type} {f : Problem → Action α}
    (h : Problem.Spares p (Problem.live p >>= f)) : Along (Leaves none) (Problem.live p >>= f) := by
  intro w
  by_cases hp : IsLive w p
  · obtain ⟨q, hq⟩ := hp
    exact leaves_of_stillLive ⟨q, hq⟩ (h w q hq)
  · rw [Action.after, Action.run_bind_of_error f (Problem.live_run_of_not_live hp)]
    exact Steady.refl w

theorem note_leaves (severity : Severity) (origin : Origin) (text : String) :
    Along (Leaves none) (Action.note severity origin text) := fun _ => leaves_of_eq rfl rfl rfl

theorem simplex_leaves (engine : Engine) (control : SimplexControl) (p : Ref Lifetime) :
    Along (Leaves none) (Problem.simplex engine control p) :=
  leaves_of_spares (Problem.spares_simplex engine control p)

theorem search_leaves (engine : Engine) (control : SearchControl) (p : Ref Lifetime) :
    Along (Leaves none) (Problem.search engine control p) :=
  leaves_of_spares (Problem.spares_search engine control p)

theorem loadArrays_leaves (p : Ref Lifetime) (arrays : ParallelArrays) :
    Along (Leaves none) (Problem.loadArrays p arrays) :=
  leaves_of_spares (Problem.spares_loadArrays p arrays)

/-! ### Scopes -/

/-- A problem that is made for a scope is deleted at its end, whatever becomes of the scope. -/
theorem scope_leaves {α β : Type} {body : Ref Lifetime → Action α} {rest : α → Action β}
    (hbody : ∀ p, Along (Leaves none) (body p)) (hrest : ∀ a, Along (Leaves none) (rest a))
    {w₀ : Workspace} (h : Leaves (some p) w₀ w) :
    Leaves none w₀ ((Problem.within p (body p) >>= rest).after w) := by
  refine Along.after_bind ?_ hrest
  rw [Action.after, Problem.within, Action.run_ensuring]
  exact leaves_release (h.trans (hbody p w))

end

/-! ### Models -/

namespace Modeling

variable {r : Ref Model} {m : Model} {v w : Workspace}

theorem leaves_of_put (hproblems : v.problems = w.problems) (hdeletions : v.deletions = w.deletions)
    (hmodels : v.models = w.models.put r m) (hname : m.name = (w.models.get r).name) :
    Leaves none w v := by
  refine leaves_of_names hproblems hdeletions fun r' m' hm' => ?_
  rw [hmodels]
  by_cases hr : r' = r
  · subst hr
    rw [Store.get_of_get? hm'] at hname
    exact ⟨m, Store.get?_put_self hm', hname⟩
  · exact ⟨m', (Store.get?_put_of_ne m hr).trans hm', rfl⟩

theorem newVariable_leaves (request : Variable.Request) :
    Along (Leaves none) (newVariable request) := by
  intro w
  rw [Action.after, run_newVariable]
  split <;> exact leaves_of_eq rfl rfl rfl

theorem addVariable_leaves (r : Ref Model) (v : Variable) :
    Along (Leaves none) (addVariable r v) := by
  intro w
  rw [Action.after, run_addVariable]
  cases hadd : (w.models.get r).addVariable v with
  | error fault => exact Steady.refl w
  | ok m =>
    unfold Model.addVariable at hadd
    split_ifs at hadd
    cases hadd
    exact leaves_of_put (r := r) rfl rfl rfl rfl

theorem newConstraint_leaves (c : Constraint) : Along (Leaves none) (newConstraint c) :=
  fun _ => leaves_of_eq rfl rfl rfl

theorem addConstraint_leaves (r : Ref Model) (c : Ref Constraint) (name : Option String) :
    Along (Leaves none) (addConstraint r c name) := fun _ => leaves_of_put (r := r) rfl rfl rfl rfl

theorem addObjective_leaves (r : Ref Model) (o : Objective) :
    Along (Leaves none) (addObjective r o) := fun _ => leaves_of_put (r := r) rfl rfl rfl rfl

end Modeling

/-! ### Loads -/

namespace Reconstruction

theorem addProblem_leaves (r : Ref Model) (q : Problem) :
    Along (Leaves none) (addProblem r q) :=
  Stepwise.addProblem ⟨Modeling.newVariable_leaves, Modeling.addVariable_leaves,
    Modeling.newConstraint_leaves, Modeling.addConstraint_leaves, Modeling.addObjective_leaves,
    note_leaves⟩ r q

end Reconstruction

/-- **A load leaves no problem behind**, whatever becomes of it. -/
theorem Loading.load_leaves (engine : Engine) (r : Ref Model) (path : String)
    (data output : Option String) : Along (Leaves none) (Loading.load engine r path data output) := by
  intro w
  obtain ⟨-, fault, files, journal, hrun⟩ | ⟨q, files, journal, -, hrun⟩ :=
    Loading.load_run engine r path data output w
  · rw [Action.after, hrun]
    exact leaves_of_eq rfl rfl rfl
  · have hadopt := leaves_adopt (q := q) (w := w) (v := { w with
      files, journal, problems := w.problems.push (.live q) }) rfl rfl rfl
    rw [Action.after, hrun, Problem.within, Action.run_ensuring]
    exact leaves_release (hadopt.trans (Reconstruction.addProblem_leaves r q _))

/-! ### Solves -/

namespace Solver

/-- What receives the lines leaves no problem behind itself. -/
abbrev Tidy (sink : Option Sink) : Prop := Lines (Leaves none) sink

variable {sink : Option Sink} {r : Ref Model} {m : Model} {s : Ref Solver} {w : Workspace}

theorem runSimplex_leaves (hsink : Tidy sink) (engine : Engine) (s : Ref Solver)
    (p : Ref Lifetime) : Along (Leaves none) (runSimplex engine sink s p) :=
  (along_state s).bind fun _ => (Along.of _).bind fun _ => (simplex_leaves engine _ p).bind fun _ =>
    (hsink.finishRun note_leaves _ _).bind fun _ => .pure _

theorem runSearch_leaves (hsink : Tidy sink) (engine : Engine) (s : Ref Solver)
    (p : Ref Lifetime) : Along (Leaves none) (runSearch engine sink s p) :=
  (along_state s).bind fun _ => (Along.of _).bind fun _ => (search_leaves engine _ p).bind fun _ =>
    (hsink.finishRun note_leaves _ _).bind fun _ => .pure _

theorem runEngine_leaves (hsink : Tidy sink) (engine : Engine) (s : Ref Solver)
    (p : Ref Lifetime) (t : Translation) :
    Along (Leaves none) (runEngine engine sink s p t) := by
  refine (Along.of _).bind fun arrays => (loadArrays_leaves p arrays).bind fun _ => ?_
  refine (runSimplex_leaves hsink engine s p).bind ?_
  rintro ⟨good, relaxation⟩
  refine .ite (.pure _) (.ite (.pure _) ?_)
  exact (runSearch_leaves hsink engine s p).bind fun _ => .pure _

/-- A translation spares the problem that it fills. -/
theorem fill_spares (p : Ref Lifetime) (m : Model) (values : Overrides) (q : Problem) :
    Problem.Spares p (do
      let (problem, t) ← Translation.translate m values q
      Problem.store p problem
      pure t) := by
  have htranslate : Problem.Spares p (Translation.translate m values q) := by
    intro w x hx
    obtain ⟨intervals, journal, hafter⟩ := translate_after m values q w
    rw [hafter]
    exact ⟨⟨x, hx⟩, fun _ _ => rfl, rfl, rfl⟩
  exact htranslate.bind fun t => (Problem.spares_store p t.1).bind fun _ => .pure _

/-- The first part of a solve: the problem is filled. -/
theorem solveIn_eq (engine : Engine) (sink : Option Sink) (s : Ref Solver) (r : Ref Model)
    (values : Overrides) (p : Ref Lifetime) :
    solveIn engine sink s r values p = (do
      let m ← Modeling.model r
      let t ← (do
        let q ← Problem.live p
        let (problem, t) ← Translation.translate m values q
        Problem.store p problem
        pure t)
      writeSummary sink r t
      write sink " - Solving GLPK model"
      match ← runEngine engine sink s p t with
      | none => pure none
      | some seconds =>
        let found := outcome (← Problem.live p) (← state s).mixedInteger
        pure (some (solution (← Modeling.model r) t found seconds, seconds))) := by
  simp only [bind_assoc, pure_bind]
  rfl

theorem live_leaves (p : Ref Lifetime) : Along (Leaves none) (Problem.live p) := by
  have hbind := leaves_of_spares (p := p) (f := pure) ((Problem.spares_live p).bind fun _ => .pure _)
  rwa [bind_pure] at hbind

theorem solveIn_leaves (hsink : Tidy sink) (engine : Engine) (s : Ref Solver) (r : Ref Model)
    (values : Overrides) (p : Ref Lifetime) :
    Along (Leaves none) (solveIn engine sink s r values p) := by
  rw [solveIn_eq]
  refine (along_model r).bind fun m => ?_
  refine (leaves_of_spares ((Problem.spares_live p).bind fun q =>
    fill_spares p m values q)).bind fun t => ?_
  refine (hsink.writeSummary note_leaves r t).bind fun _ => (hsink.write _).bind fun _ => ?_
  refine (runEngine_leaves hsink engine s p t).bind fun seconds? => ?_
  cases seconds? with
  | none => exact .pure _
  | some seconds =>
    exact (live_leaves p).bind fun _ => (along_state s).bind fun _ =>
      (along_model r).bind fun _ => .pure _

/-- The rest of a solve, from where its problem is made. -/
def solveNamed (engine : Engine) (sink : Option Sink) (s : Ref Solver) (r : Ref Model)
    (values : Overrides) (name : Scalar) : Action (Option Solution) := do
  let p ← Problem.create name
  match ← Problem.within p (solveIn engine sink s r values p) with
  | none => pure none
  | some (found, seconds) =>
    noteSolved found seconds
    pure (some found)

/-- Once the problem is made it is deleted. -/
theorem solveNamed_leaves (hsink : Tidy sink) {name : Scalar} {q : Problem}
    (hname : named name = .ok q) (engine : Engine) (s : Ref Solver) (r : Ref Model)
    (values : Overrides) (w : Workspace) :
    Leaves none w ((solveNamed engine sink s r values name).after w) := by
  have hcreate := create_run name w
  rw [hname] at hcreate
  rw [Action.after, solveNamed, Action.run_bind_of_ok _ hcreate]
  refine scope_leaves (solveIn_leaves hsink engine s r values) (fun found => ?_)
    (leaves_adopt rfl rfl rfl)
  cases found with
  | none => exact .pure _
  | some found => exact (note_leaves _ _ _).bind fun _ => .pure _

/-- A problem whose name is refused is made all the same. -/
theorem solveNamed_leaks {name : Scalar} {fault : Fault} (hname : named name = .error fault)
    (engine : Engine) (sink : Option Sink) (s : Ref Solver) (r : Ref Model) (values : Overrides)
    (w : Workspace) : ∃ v, (solveNamed engine sink s r values name).run w = (.error fault, v) ∧
      Leaves (some w.problems.next) w v := by
  have hcreate := create_run name w
  rw [hname] at hcreate
  exact ⟨_, Action.run_bind_of_error _ hcreate, leaves_adopt rfl rfl rfl⟩

/-- A solve is refused before it makes a problem, because of the model or of the first line, or it
makes a problem for the name that the model had. -/
theorem solveTaken_begins (hsink : Tidy sink) (hm : w.models.get? r = some m) (engine : Engine)
    (s : Ref Solver) (values : Overrides) :
    ∃ v, Leaves none w v ∧
      ((solveTaken engine sink s r values).run w =
          (solveNamed engine sink s r values m.name).run v ∨
        ∃ fault, (solveTaken engine sink s r values).run w = (.error fault, v) ∧
          (Translation.checkModel m w.constraints = .ok () →
            ∃ u, ((write sink " - Creating GLPK model").run u).1 = .error fault)) := by
  have hmodel : (Modeling.model r).run w = (.ok m, w) := by
    rw [← Store.get_of_get? hm]
    rfl
  rw [solveTaken, Action.run_bind_of_ok _ hmodel, Action.run_bind_of_ok _ (Action.run_get w)]
  cases hcheck : Translation.checkModel m w.constraints with
  | error fault => exact ⟨w, Steady.refl w, .inr ⟨fault, rfl, nofun⟩⟩
  | ok accepted =>
    rw [Action.run_bind_of_ok _ (Action.run_of _ w), Action.run_bind_of_ok _ (Action.run_modify _ w)]
    set w₁ := change s (fun x => { x with mixedInteger := m.isMixedInteger }) w
    have hfirst : Leaves none w w₁ := leaves_of_eq rfl rfl rfl
    have hline := hfirst.trans (hsink.write " - Creating GLPK model" w₁)
    rw [Action.after] at hline
    rcases hrun : (write sink " - Creating GLPK model").run w₁ with ⟨fault | _, w₂⟩ <;>
      rw [hrun] at hline
    · exact ⟨w₂, hline, .inr ⟨fault, Action.run_bind_of_error _ hrun, fun _ => ⟨w₁, by rw [hrun]⟩⟩⟩
    · obtain ⟨m', hm', hname⟩ := hline.names r m hm
      have hmodel' : (Modeling.model r).run w₂ = (.ok m', w₂) := by
        rw [← Store.get_of_get? hm']
        rfl
      rw [Action.run_bind_of_ok _ hrun, Action.run_bind_of_ok _ hmodel', hname]
      exact ⟨w₂, hline, .inl rfl⟩

/-- The busy flag of a solver has nothing to do with problems. -/
theorem leaves_around {left : Option (Ref Lifetime)} {v : Workspace} {f g : Solver → Solver}
    (h : Leaves left (change s f w) v) : Leaves left w (change s g v) := by
  have hfirst : Leaves none w (change s f w) := leaves_of_eq rfl rfl rfl
  have hlast : Leaves none v (change s g v) := leaves_of_eq rfl rfl rfl
  exact (hfirst.append h (.inl rfl)).trans hlast

theorem solve_after_of_idle (hidle : (w.solvers.get s).busy = false) (engine : Engine)
    (sink : Option Sink) (r : Ref Model) (values : Overrides) :
    (solve engine sink s (some r) values).after w =
      change s (fun x => { x with busy := false }) ((solveTaken engine sink s r values).after
        (change s (fun x => { x with busy := true }) w)) := by
  rw [Action.after, solve_run_of_idle engine sink values hidle]
  rfl

/-- **A solve leaves no problem behind when the name of the model is accepted.** -/
theorem solve_leaves (hsink : Tidy sink) (hm : w.models.get? r = some m) {q : Problem}
    (hname : named m.name = .ok q) (engine : Engine) (s : Ref Solver) (values : Overrides) :
    Leaves none w ((solve engine sink s (some r) values).after w) := by
  cases hbusy : (w.solvers.get s).busy with
  | true =>
    rw [Action.after, solve_run_of_busy engine sink values hbusy]
    exact Steady.refl w
  | false =>
    rw [solve_after_of_idle hbusy]
    refine leaves_around (f := fun x => { x with busy := true }) ?_
    rw [Action.after]
    obtain ⟨v, hv, hrun | ⟨fault, hrun, -⟩⟩ :=
      solveTaken_begins hsink (w := change s (fun x => { x with busy := true }) w) hm engine s values
    · rw [hrun]
      exact hv.trans (solveNamed_leaves hsink hname engine s r values v)
    · rw [hrun]
      exact hv

/-- **A solve leaves its problem behind when the name of the model is refused**, unless it does not
get as far as that. -/
theorem solve_leaks (hsink : Tidy sink)
    (hline : ∀ u, ((write sink " - Creating GLPK model").run u).1 = .ok ())
    (hm : w.models.get? r = some m) (hidle : (w.solvers.get s).busy = false)
    (hcheck : Translation.checkModel m w.constraints = .ok ()) {fault : Fault}
    (hname : named m.name = .error fault) (engine : Engine) (values : Overrides) :
    ((solve engine sink s (some r) values).run w).1 = .error fault ∧
      ∃ p, Leaves (some p) w ((solve engine sink s (some r) values).after w) := by
  rw [solve_after_of_idle hidle, solve_run_of_idle engine sink values hidle, Action.run_ensuring]
  obtain ⟨v, hv, hrun | ⟨fault', -, hrefused⟩⟩ :=
    solveTaken_begins hsink (w := change s (fun x => { x with busy := true }) w) hm engine s values
  · obtain ⟨u, hu, hleft⟩ := solveNamed_leaks hname engine sink s r values v
    rw [Action.after, hrun, hu]
    exact ⟨rfl, v.problems.next, leaves_around (hv.append hleft (.inl rfl))⟩
  · obtain ⟨u, hu⟩ := hrefused hcheck
    rw [hline u] at hu
    cases hu

/-- A name of `n` characters. -/
def longName (n : Nat) : String := String.ofList (List.replicate n 'm')

theorem length_longName (n : Nat) : (longName n).length = n := by
  rw [longName, String.length_ofList, List.length_replicate]

theorem named_longName {n : Nat} (h : Problem.nameLimit < n) :
    named (.text (longName n)) = .error (.nameTooLong (longName n)) := by
  have hrefused : Problem.limitName (longName n) = .error (.nameTooLong (longName n)) := by
    rw [Problem.limitName, length_longName, if_neg (Nat.not_le.2 h)]
    rfl
  have hnonempty : (longName n).isEmpty = false := by
    rw [← Bool.not_eq_true, String.isEmpty_iff, ← String.length_eq_zero_iff, length_longName]
    omega
  rw [named, Scalar.isTrue, hnonempty, Bool.not_false, if_pos rfl, Scalar.toText, hrefused]
  rfl

/-- A model of a name with `n` characters, with a solver. -/
def longNamed (n : Nat) : Workspace :=
  (create {}).after ((Modeling.newModel { name := .text (longName n) }).after {})

/-- With one character too many the solve is refused and leaves a problem behind. -/
theorem longName_leaks (engine : Engine) :
    ((solve engine none ⟨0⟩ (some ⟨0⟩) []).run (longNamed 256)).1 =
        .error (.nameTooLong (longName 256)) ∧
      ∃ p, ¬IsLive (longNamed 256) p ∧
        IsLive ((solve engine none ⟨0⟩ (some ⟨0⟩) []).after (longNamed 256)) p := by
  have htidy : Tidy none := nofun
  obtain ⟨hfault, p, hleaves⟩ := solve_leaks htidy (w := longNamed 256) (s := ⟨0⟩) (r := ⟨0⟩)
    (m := { name := .text (longName 256) }) (fun _ => rfl) rfl rfl rfl
    (named_longName (by decide)) engine []
  refine ⟨hfault, p, ?_, (hleaves.live p).2 (.inr rfl)⟩
  rintro ⟨q, hq⟩
  rw [hleaves.made p rfl] at hq
  cases hq

end Solver

/-- **No problem outlives its call**, if the name of the model is accepted and the lines are
received by something that leaves no problem behind itself: whatever comes of a solve or a load, the
same problems live afterwards, and each that was made meanwhile was deleted once. -/
theorem no_problem_outlives {sink : Option Sink} (hsink : Solver.Tidy sink) (engine : Engine)
    (w : Workspace) :
    (∀ s r m q values, w.models.get? r = some m → Solver.named m.name = .ok q →
      Leaves none w ((Solver.solve engine sink s (some r) values).after w)) ∧
    ∀ r path data output, Leaves none w ((Loading.load engine r path data output).after w) :=
  ⟨fun s _ _ _ values hm hname => Solver.solve_leaves hsink hm hname engine s values,
    fun r path data output => Loading.load_leaves engine r path data output w⟩

/-- After the sample is solved, or any file is loaded into it, no problem lives. -/
theorem sample_leaves_no_problem (engine : Engine) :
    Leaves none Modeling.sampleWithSolver
        ((Solver.solve engine none ⟨0⟩ (some ⟨0⟩) []).after Modeling.sampleWithSolver) ∧
      ∀ path data output, Leaves none Modeling.sampleWithSolver
        ((Loading.load engine ⟨0⟩ path data output).after Modeling.sampleWithSolver) := by
  have htidy : Solver.Tidy none := nofun
  have hleaves := no_problem_outlives htidy engine Modeling.sampleWithSolver
  exact ⟨hleaves.1 _ _ _ _ _ rfl rfl, hleaves.2 _⟩

end Optimization
