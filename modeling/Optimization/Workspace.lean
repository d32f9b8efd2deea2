import Optimization.Files
import Optimization.IndexMap
import Optimization.Journal
import Optimization.Model
import Optimization.Parameters
import Optimization.Problem.Basic
import Optimization.Triplets

/-!
# Workspaces

A workspace holds everything that can change: the bounds of variables, constraints, models,
problems, solvers, files, the calls of engines, the journal and what listeners recorded. An action
reads and changes it, and may be refused; the changes made before a refusal stay.

* `Action.attempt` : the outcome of an action as a value;
* `Action.ensuring` : an action with a last step that is done on every exit.
-/

namespace Optimization

/-- A problem while it lasts, and what is left of it. -/
inductive Lifetime
  | live (problem : Problem)
  | freed

instance : Inhabited Lifetime := ⟨.freed⟩

/-- What a solver remembers. -/
structure Solver where
  parameters : Parameters := {}
  busy : Bool := false
  mixedInteger : Bool := false

instance : Inhabited Solver := ⟨{}⟩

/-- The ways in which an engine solves a problem. -/
inductive Method
  | simplex
  | search
  deriving DecidableEq, Repr

/-- A call of an engine: the problem it was given, the method, and the code that it returned. -/
structure Call where
  problem : Ref Lifetime
  method : Method
  code : Int
  deriving DecidableEq

/-- Everything that can change. -/
structure Workspace where
  intervals : Store Interval := {}
  constraints : Store Constraint := {}
  models : Store Model := {}
  problems : Store Lifetime := {}
  /-- The problems that were freed, in the order in which that happened. -/
  deletions : List (Ref Lifetime) := []
  /-- The calls of engines that solve, in the order in which they were made. -/
  calls : List Call := []
  solvers : Store Solver := {}
  triplets : Store Triplets := {}
  indexMaps : Store IndexMap := {}
  files : Files := .empty
  journal : List Note := []
  /-- What listeners recorded. -/
  transcript : List Remark := []

/-- An operation on a workspace that may be refused. -/
abbrev Action (α : Type) := ExceptT Fault (StateM Workspace) α

namespace Action

variable {α β : Type}

/-- Run an action. -/
def run (action : Action α) (w : Workspace) : Except Fault α × Workspace :=
  (ExceptT.run action).run w

/-- A result or a refusal as an action. -/
def of (x : Except Fault α) : Action α := ExceptT.mk (pure x)

/-- The outcome of an action as a value; it is never refused. -/
def attempt (action : Action α) : Action (Except Fault α) :=
  fun w => let (r, w) := action.run w; (.ok r, w)

/-- An action followed by a step that is done whatever the outcome. -/
def ensuring (action : Action α) (last : Workspace → Workspace) : Action α :=
  fun w => let (r, w) := action.run w; (r, last w)

/-- Add a note to the journal. -/
def note (severity : Severity) (origin : Origin) (text : String) : Action Unit :=
  modify fun w => { w with journal := w.journal ++ [⟨severity, origin, text⟩] }

@[simp] theorem run_of (x : Except Fault α) (w : Workspace) : (of x).run w = (x, w) := rfl

@[simp] theorem run_pure (x : α) (w : Workspace) : (pure x : Action α).run w = (.ok x, w) := rfl

theorem run_bind (x : Action α) (f : α → Action β) (w : Workspace) :
    (x >>= f).run w =
      match x.run w with
      | (.ok a, w) => (f a).run w
      | (.error e, w) => (.error e, w) := by
  show ((ExceptT.run (x >>= f)).run w) = _
  simp only [ExceptT.run_bind, StateT.run_bind, run]
  rcases h : (ExceptT.run x).run w with ⟨r, w'⟩
  cases r <;> rfl

@[simp] theorem run_ensuring (x : Action α) (last : Workspace → Workspace) (w : Workspace) :
    (x.ensuring last).run w = ((x.run w).1, last (x.run w).2) := rfl

end Action

end Optimization
