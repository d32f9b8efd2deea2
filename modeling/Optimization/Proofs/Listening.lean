import Optimization.Solving
import Optimization.Proofs.Runs

/-!
# Sinks that leave a solve alone

A solver hands its lines to a sink, which may do anything. A discreet sink accepts every line and
leaves alone what the solve is about: the model, the solver, and the problem that the solve works
on.

* `SameModel` : a model and all that belongs to it are as they were;
* `Untouched`, `Discreet` : what a discreet sink may do;
* `listener_discreet` : listeners are discreet unless they raise;
* `Lines R sink` : whatever a sink does with a line, it leaves a workspace that is related by `R` to
  the one before, and so does all that a solver does to write lines.
-/

namespace Optimization.Solver

/-- A model, its constraints and the bounds of its variables are as they were. -/
structure SameModel (r : Ref Model) (w w' : Workspace) : Prop where
  model : w'.models.get? r = w.models.get? r
  constraints : ∀ c ∈ (w.models.get r).constraints, w'.constraints.get? c = w.constraints.get? c
  intervals : ∀ v ∈ (w.models.get r).decisions, w'.intervals.get? v.cell = w.intervals.get? v.cell

/-- The calls of engines on a problem. -/
def callsOn (p : Ref Lifetime) (w : Workspace) : List Call := w.calls.filter (·.problem = p)

/-- A solve is left alone: the model, the solver, and the problem in a cell once it is there.
Other problems may be made, solved and freed. -/
structure Untouched (s : Ref Solver) (r : Ref Model) (p : Ref Lifetime) (w w' : Workspace) :
    Prop where
  same : SameModel r w w'
  solver : w'.solvers.get? s = w.solvers.get? s
  size : w.problems.next.index ≤ w'.problems.next.index
  problem : (w.problems.get? p).isSome → w'.problems.get? p = w.problems.get? p
  calls : (w.problems.get? p).isSome ∨ w'.problems.get? p = none → callsOn p w' = callsOn p w

/-- A sink that accepts every line of a busy solver and leaves the solve alone. -/
def Discreet (s : Ref Solver) (r : Ref Model) (p : Ref Lifetime) (f : Sink) : Prop :=
  ∀ line w, (w.solvers.get s).busy = true → (f line).Ends w (.ok ()) (Untouched s r p w)

section

variable {s : Ref Solver} {r : Ref Model} {p : Ref Lifetime} {w w' w'' : Workspace}

theorem SameModel.refl (r : Ref Model) (w : Workspace) : SameModel r w w :=
  ⟨rfl, fun _ _ => rfl, fun _ _ => rfl⟩

theorem SameModel.get (h : SameModel r w w') : w'.models.get r = w.models.get r :=
  Store.get_congr h.model

theorem SameModel.trans (h : SameModel r w w') (h' : SameModel r w' w'') : SameModel r w w'' where
  model := h'.model.trans h.model
  constraints c hc := (h'.constraints c (h.get ▸ hc)).trans (h.constraints c hc)
  intervals v hv := (h'.intervals v (h.get ▸ hv)).trans (h.intervals v hv)

/-! ### Listeners -/

theorem untouched_transcript (w : Workspace) (transcript : List Remark) :
    Untouched s r p w { w with transcript } :=
  ⟨⟨rfl, fun _ _ => rfl, fun _ _ => rfl⟩, rfl, Nat.le_refl _, fun _ => rfl, fun _ => rfl⟩

/-- A request that is refused is recorded. -/
theorem recordRequest_ends {α : Type} (reaction : Reaction) {request : Action α} {fault : Fault}
    (h : request.run w = (.error fault, w)) :
    (recordRequest reaction request).Ends w (.ok ()) fun w' =>
      ∃ transcript, w' = { w with transcript } := by
  have hattempt : request.attempt.run w = (.ok (.error fault), w) := by
    rw [Action.run_attempt, h]
  exact .step hattempt (.of_run rfl ⟨_, rfl⟩)

theorem state_run (s : Ref Solver) (w : Workspace) :
    (state s).run w = (.ok (w.solvers.get s), w) := rfl

/-- A busy solver refuses to solve. -/
theorem solve_run_of_busy (engine : Engine) (sink : Option Sink) (values : Overrides)
    (hbusy : (w.solvers.get s).busy = true) :
    (solve engine sink s (some r) values).run w = (.error .busy, w) := by
  simp only [solve]
  rw [Action.run_bind_of_ok _ (state_run s w), if_pos hbusy]
  rfl

/-- A reaction of a listener to a busy solver changes nothing but the transcript. -/
theorem react_ends (engine : Engine) (model : Option (Ref Model)) {reaction : Reaction}
    (hne : reaction ≠ .fail) (hbusy : (w.solvers.get s).busy = true) :
    (react engine s model reaction).Ends w (.ok ()) fun w' =>
      ∃ transcript, w' = { w with transcript } := by
  cases reaction with
  | look => exact .of_run rfl ⟨_, rfl⟩
  | solve =>
    cases model with
    | none =>
      have hrefused : (Solver.solve engine none s none []).run w = (.error .noModel, w) := rfl
      exact recordRequest_ends .solve hrefused
    | some r => exact recordRequest_ends .solve (solve_run_of_busy engine none [] hbusy)
  | abort =>
    have hrefused : (abort s).run w = (.error .abortRunning, w) := by
      rw [abort, Action.run_bind_of_ok _ (state_run s w), if_pos hbusy]
      rfl
    exact recordRequest_ends .abort hrefused
  | setParameters =>
    have hrefused : (setParameters s).run w = (.error .busy, w) := by
      rw [setParameters, Action.run_bind_of_ok _ (state_run s w), if_pos hbusy]
      rfl
    exact recordRequest_ends .setParameters hrefused
  | fail => exact absurd rfl hne

/-- **A listener that never raises is discreet.** -/
theorem listener_discreet (engine : Engine) (model : Option (Ref Model))
    {reactions : List (String × List Reaction)}
    (h : ∀ line reaction, reaction ∈ (reactions.lookup line).getD [] → reaction ≠ .fail) :
    Discreet s r p (listener engine s model reactions) := by
  intro line w hbusy
  have hreactions : (((reactions.lookup line).getD []).forM (react engine s model)).Ends
      { w with transcript := w.transcript ++ [.line line] } (.ok ()) fun w' =>
        ∃ transcript, w' = { w with transcript } := by
    refine .forM ⟨_, rfl⟩ fun reaction hmem w' hw' => ?_
    obtain ⟨transcript, rfl⟩ := hw'
    have hbusy' : (({ w with transcript } : Workspace).solvers.get s).busy = true := hbusy
    refine (react_ends engine model (h line reaction hmem) hbusy').mono ?_
    rintro _ ⟨transcript', rfl⟩
    exact ⟨transcript', rfl⟩
  refine .step rfl (hreactions.mono ?_)
  rintro _ ⟨transcript, rfl⟩
  exact untouched_transcript w transcript

end

/-! ### Lines along a relation -/

/-- Whatever becomes of a line, the workspace afterwards is related to the one before. -/
def Lines (R : Workspace → Workspace → Prop) (sink : Option Sink) : Prop :=
  ∀ f, sink = some f → ∀ line, Action.Along R (f line)

section

variable {R : Workspace → Workspace → Prop} [Action.Steady R] {sink : Option Sink}

theorem along_model (r : Ref Model) : Action.Along R (Modeling.model r) := .of_after fun _ => rfl

theorem along_state (s : Ref Solver) : Action.Along R (state s) := .of_after fun _ => rfl

theorem Lines.write (h : Lines R sink) (line : String) : Action.Along R (write sink line) := by
  cases sink with
  | none => exact .pure _
  | some f => exact h f rfl line

variable (hnote : ∀ severity origin text, Action.Along R (Action.note severity origin text))
include hnote

theorem Lines.writeSummary (h : Lines R sink) (r : Ref Model) (t : Translation) :
    Action.Along R (writeSummary sink r t) :=
  (along_model r).bind fun _ => (Action.Along.forM h.write _).bind fun _ =>
    (along_model r).bind fun _ => hnote _ _ _

theorem Lines.finishRun (h : Lines R sink) (method : String) (run : Run) :
    Action.Along R (finishRun sink method run) := by
  refine (Action.Along.forM h.write _).bind fun _ => .ite (.pure _) ?_
  exact Action.Along.bind ((hnote _ _ _).bind fun _ => h.write _) fun _ => .pure _

end

end Optimization.Solver
