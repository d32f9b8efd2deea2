import Optimization.Proofs.Building
import Optimization.Proofs.Orchestration

/-!
# Solves in a row

A solver may solve one model again and again, each time with other variables fixed. No solve has an
influence on a later one, whether it succeeds, finds nothing or is refused.

* `solves` : the outcomes of solves in a row, and what each of them leaves;
* `Ready` : what holds between two solves;
* `solves_independent` : each outcome is that of a fresh solver, and the model stays as it was.
-/

namespace Optimization.Solver

/-- Solve a model several times in a row, whatever comes out: the outcome of each solve and the
workspace that it leaves. -/
def solves (engine : Engine) (sink : Option Sink) (s : Ref Solver) (r : Ref Model) :
    List Overrides → Workspace → List (Except Fault (Option Solution) × Workspace)
  | [], _ => []
  | values :: rest, w =>
    let x := (solve engine sink s (some r) values).run w
    x :: solves engine sink s r rest x.2

/-- Solve a model with a solver that is made for it. -/
def solveFresh (engine : Engine) (parameters : Parameters) (r : Ref Model) (values : Overrides) :
    Action (Option Solution) := do
  let s ← create parameters
  solve engine none s (some r) values

section

variable {sink : Option Sink} {s : Ref Solver} {r : Ref Model}
  {w w' : Workspace} {parameters : Parameters} {values : Overrides}

/-- Between two solves of a row that began at `w`: the model is as it was, and the solver is idle
and has its parameters. -/
structure Ready (s : Ref Solver) (r : Ref Model) (parameters : Parameters) (w w' : Workspace) :
    Prop where
  same : SameModel r w w'
  solver : ∃ σ, w'.solvers.get? s = some σ ∧ σ.parameters = parameters ∧ σ.busy = false
  size : w.problems.next.index ≤ w'.problems.next.index

/-- What is not there between two solves was not there when the row began. -/
theorem Ready.absent {p : Ref Lifetime} (h : Ready s r parameters w w')
    (hp : w'.problems.get? p = none) : w.problems.get? p = none :=
  Array.getElem?_eq_none (Nat.le_trans h.size (Array.getElem?_eq_none_iff.1 hp))

/-- A fresh solver has the answer. -/
theorem solveFresh_outcome (engine : Engine) (parameters : Parameters) (values : Overrides)
    (hcells : ((w.models.get r).decisions.map (·.cell)).Nodup) :
    ((solveFresh engine parameters r values).run w).1 =
      (answer engine parameters (w.models.get r) w.constraints w.intervals values).map
        Prod.fst := by
  have hcreate : (create parameters).run w =
      (.ok w.solvers.next, { w with solvers := w.solvers.push { parameters } }) := rfl
  have hsolve := solve_ends (w := { w with solvers := w.solvers.push { parameters } })
    (r := r) engine values (Store.get?_push_next w.solvers { parameters }) rfl hcells
    fun f (hf : none = some f) => nomatch hf
  rw [solveFresh, Action.run_bind_of_ok _ hcreate]
  exact hsolve.outcome

/-- **One solve**: the solver is ready again, and the outcome is that of a fresh solver at the
beginning of the row. -/
theorem Ready.solve (engine : Engine) (h : Ready s r parameters w w')
    (hcells : ((w.models.get r).decisions.map (·.cell)).Nodup)
    (hsink : ∀ f, sink = some f →
      ∀ p, w.problems.get? p = none → Discreet s r p f) (values : Overrides) :
    (solve engine sink s (some r) values).Ends w'
      ((solveFresh engine parameters r values).run w).1 (Ready s r parameters w) := by
  obtain ⟨σ, hs, rfl, hidle⟩ := h.solver
  have hfresh : w.problems.get? (ownProblem sink s r w') = none :=
    h.absent (ownProblem_fresh hs fun f hf => hsink f hf _ (Store.get?_next _))
  have hsolve := solve_ends (r := r) engine values hs hidle (by rwa [h.same.get])
    fun f hf => hsink f hf _ hfresh
  rw [answer_congr h.same] at hsolve
  rw [solveFresh_outcome engine σ.parameters values hcells]
  exact hsolve.mono fun w'' hover =>
    ⟨h.same.trans hover.same, hover.solver, Nat.le_trans h.size hover.size⟩

/-- What holds between two solves holds after each of a row of solves. -/
theorem Ready.solves (engine : Engine) (h : Ready s r parameters w w')
    (hcells : ((w.models.get r).decisions.map (·.cell)).Nodup)
    (hsink : ∀ f, sink = some f →
      ∀ p, w.problems.get? p = none → Discreet s r p f) (runs : List Overrides) :
    List.Forall₂ (fun values x => Ready s r parameters w x.2 ∧
        x.1 = ((solveFresh engine parameters r values).run w).1)
      runs (solves engine sink s r runs w') := by
  induction runs generalizing w' with
  | nil => exact .nil
  | cons values rest ih =>
    have hsolve := h.solve engine hcells hsink values
    exact .cons ⟨hsolve.after, hsolve.outcome⟩ (ih hsolve.after)

end

/-- **Solves do not influence each other.** After each of any number of solves the model is exactly
as it was at first, and the outcome of each is the one that a fresh solver gives at first. The sink
must leave the problems alone on which the solves work, which are new ones. -/
theorem solves_independent {w : Workspace} {vs : List Variable} {σ : Solver} {s : Ref Solver}
    {r : Ref Model} {sink : Option Sink} (engine : Engine) (hbuilt : Modeling.Built false w vs)
    (hs : w.solvers.get? s = some σ) (hidle : σ.busy = false)
    (hsink : ∀ f, sink = some f →
      ∀ p, w.problems.get? p = none → Discreet s r p f) (runs : List Overrides) :
    List.Forall₂ (fun values x => SameModel r w x.2 ∧
        x.1 = ((solveFresh engine σ.parameters r values).run w).1)
      runs (solves engine sink s r runs w) := by
  have hsound := hbuilt.sound
  have hcells := hsound.nodup_cells (hsound.nodup_decisions r)
  have hready : Ready s r σ.parameters w w :=
    ⟨.refl r w, ⟨σ, hs, rfl, hidle⟩, Nat.le_refl _⟩
  exact (hready.solves engine hcells hsink runs).imp fun values x h => ⟨h.1.same, h.2⟩

/-- A value that is no number is refused after another variable was fixed already, and the next
solve does not notice. -/
theorem sample_solves_independent :
    ((solves (Modeling.constantEngine ⟨5, 3.5, [0.0, 3.0]⟩) none ⟨0⟩ ⟨0⟩
        [[("n", .real 1.0), ("x", .text "two")], []] Modeling.sampleWithSolver).map
          fun x => x.1.isOk) = [false, true] ∧
      List.Forall₂ (fun values x => SameModel ⟨0⟩ Modeling.sampleWithSolver x.2 ∧
          x.1 = ((solveFresh (Modeling.constantEngine ⟨5, 3.5, [0.0, 3.0]⟩) {} ⟨0⟩ values).run
            Modeling.sampleWithSolver).1)
        [[("n", .real 1.0), ("x", .text "two")], []]
        (solves (Modeling.constantEngine ⟨5, 3.5, [0.0, 3.0]⟩) none ⟨0⟩ ⟨0⟩
          [[("n", .real 1.0), ("x", .text "two")], []] Modeling.sampleWithSolver) := by
  refine ⟨by decide +kernel, ?_⟩
  have hs : Modeling.sampleWithSolver.solvers.get? ⟨0⟩ = some {} := rfl
  exact solves_independent _ Modeling.sampleWithSolver_built hs rfl (by simp) _

end Optimization.Solver
