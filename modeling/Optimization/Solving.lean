import Optimization.Modeling
import Optimization.Problem.Lifetime
import Optimization.Solution
import Optimization.Text.Blank
import Optimization.Translation

/-!
# Solving models

A solver checks a model, translates it into a problem, and has an engine solve the problem: first
by the simplex method, and then, if the model has integer variables, by a search that starts from
the solved relaxation.

* A solver works on one model at a time; while it does, it is busy and refuses further requests.
* It writes lines about its progress to a sink, which may do anything, and be refused itself.
* The problem is freed and the solver is idle again on every exit.
-/

namespace Optimization

/-- What is done with a line that a solver writes. -/
abbrev Sink := String → Action Unit

namespace Solver

/-- A solver as it stands. -/
def state (s : Ref Solver) : Action Solver := do pure ((← get).solvers.get s)

/-- Change a solver. -/
def change (s : Ref Solver) (f : Solver → Solver) (w : Workspace) : Workspace :=
  { w with solvers := w.solvers.put s (f (w.solvers.get s)) }

/-- Make a solver with its parameters. -/
def create (parameters : Parameters) : Action (Ref Solver) := do
  let w ← get
  set { w with solvers := w.solvers.push { parameters } }
  pure w.solvers.next

/-- Ask a solver to stop, which only has an effect on none: one that is busy cannot stop. -/
def abort (s : Ref Solver) : Action Unit := do
  if (← state s).busy then throw .abortRunning

/-- Ask a solver for other parameters, which it always refuses. -/
def setParameters (s : Ref Solver) : Action Unit := do
  if (← state s).busy then throw .busy else throw .parametersFixed

/-! ### Lines -/

/-- Write a line. -/
def write (sink : Option Sink) (line : String) : Action Unit :=
  match sink with
  | some f => f line
  | none => pure ()

/-- Write the lines of an engine, without blanks at their ends and without empty ones. -/
def writeEngineLines (sink : Option Sink) (lines : List String) : Action Unit :=
  ((lines.map Text.stripEnd).filter (!·.isEmpty)).forM (write sink)

/-- The number of integer variables of a model. -/
def integerCount (m : Model) : Nat := (m.decisions.filter (·.domain == .integer)).length

/-- The lines that tell the size of a model. -/
def summary (m : Model) (t : Translation) : List String :=
  [s!" - Model has {m.decisions.length} variables",
    s!" - Model has {integerCount m} integer variables",
    s!" - Model has {m.constraints.length} constraints",
    s!" - Model has {t.matrix.length} non zero elements"]

/-- Write the size of a model and note it. -/
def writeSummary (sink : Option Sink) (r : Ref Model) (t : Translation) : Action Unit := do
  let m ← Modeling.model r
  let integers := integerCount m
  (summary m t).forM (write sink)
  let m ← Modeling.model r
  .note .info .solver
    (s!"Model {m.name.quoted}: {m.decisions.length} variables ({integers} integer), "
      ++ s!"{m.constraints.length} constraints, {t.matrix.length} non-zeros")

/-- Note and write that a run of an engine failed. -/
def writeFailure (sink : Option Sink) (method : String) (code : Int) : Action Unit := do
  let reason := describeReturnCode (.integer code)
  .note .error .solver s!"GLPK {method} failed: {reason}"
  write sink s!"ERROR: {method} failed: {reason}"

/-! ### Runs of the engine -/

/-- Finish a run: write its lines, and tell whether it succeeded. -/
def finishRun (sink : Option Sink) (method : String) (run : Run) : Action Bool := do
  writeEngineLines sink run.lines
  if run.code = 0 then pure true
  else
    writeFailure sink method run.code
    pure false

/-- Run the simplex method. -/
def runSimplex (engine : Engine) (sink : Option Sink) (s : Ref Solver) (p : Ref Lifetime) :
    Action (Bool × Run) := do
  let control ← .of (← state s).parameters.simplexControl
  let run ← Problem.simplex engine control p
  pure (← finishRun sink "simplex" run, run)

/-- Run the search. -/
def runSearch (engine : Engine) (sink : Option Sink) (s : Ref Solver) (p : Ref Lifetime) :
    Action (Bool × Run) := do
  let control ← .of (← state s).parameters.searchControl
  let run ← Problem.search engine control p
  pure (← finishRun sink "branch-and-bound" run, run)

/-- Load the matrix and run the engine; the time it took if all runs succeeded. -/
def runEngine (engine : Engine) (sink : Option Sink) (s : Ref Solver) (p : Ref Lifetime)
    (t : Translation) : Action (Option Float) := do
  Problem.loadArrays p (← .of t.matrix.build)
  let (good, relaxation) ← runSimplex engine sink s p
  if !good then pure none
  else if !t.mixedInteger then pure (some relaxation.seconds)
  else
    let (good, search) ← runSearch engine sink s p
    pure (if good then some (relaxation.seconds + search.seconds) else none)

/-! ### Results -/

/-- What an engine found: for integer models the search's outcome, else the relaxation's. -/
def outcome (p : Problem) (mixedInteger : Bool) : Outcome :=
  if mixedInteger then p.integral else p.relaxed

/-- The value of the objective by its name. -/
def objectiveValues (m : Model) (o : Outcome) : NamedValues :=
  match m.objectives.head? with
  | some objective => [(objective.name, .real o.objective)]
  | none => []

/-- The values of the mapped variables by their names. -/
def variableValues (map : IndexMap) (o : Outcome) : NamedValues :=
  Keyed.ofEntries (map.decisions.zipIdx.map fun (v, k) =>
    (v.name, .real (Problem.valueAt o (k + 1))))

/-- The solution that a solved problem holds. -/
def solution (m : Model) (t : Translation) (o : Outcome) (seconds : Float) : Solution :=
  let (modelStatus, solutionStatus) := mapStatus (.integer o.status)
  let optimal := solutionStatus == .optimal
  { modelName := m.name
    wallTime := .real seconds
    modelStatus, solutionStatus
    variableValues := if optimal then some (variableValues t.indexMap o) else none
    objectiveValues := if optimal then some (objectiveValues m o) else none }

/-- Note that a model was solved. -/
def noteSolved (s : Solution) (seconds : Float) : Action Unit :=
  .note .info .solver
    (s!"Solved model {s.modelName.quoted} in {Decimal.fixed 3 seconds}s: "
      ++ s!"{s.modelStatus.word} / {s.solutionStatus.word}")

/-! ### The whole -/

/-- Translate a model into a problem of the workspace, and have it solved. -/
def solveIn (engine : Engine) (sink : Option Sink) (s : Ref Solver) (r : Ref Model)
    (values : Overrides) (p : Ref Lifetime) : Action (Option (Solution × Float)) := do
  let (problem, t) ← Translation.translate (← Modeling.model r) values (← Problem.live p)
  Problem.store p problem
  writeSummary sink r t
  write sink " - Solving GLPK model"
  match ← runEngine engine sink s p t with
  | none => pure none
  | some seconds =>
    let found := outcome (← Problem.live p) (← state s).mixedInteger
    pure (some (solution (← Modeling.model r) t found seconds, seconds))

/-- Solve a model with a solver that is taken. -/
def solveTaken (engine : Engine) (sink : Option Sink) (s : Ref Solver) (r : Ref Model)
    (values : Overrides) : Action (Option Solution) := do
  let m ← Modeling.model r
  .of (Translation.checkModel m (← get).constraints)
  modify (change s fun x => { x with mixedInteger := m.isMixedInteger })
  write sink " - Creating GLPK model"
  let p ← Problem.create (← Modeling.model r).name
  match ← Problem.within p (solveIn engine sink s r values p) with
  | none => pure none
  | some (found, seconds) =>
    noteSolved found seconds
    pure (some found)

/-- Solve a model while some variables are fixed. Nothing comes out if a run of the engine
failed. -/
def solve (engine : Engine) (sink : Option Sink) (s : Ref Solver) (model : Option (Ref Model))
    (values : Overrides) : Action (Option Solution) := do
  match model with
  | none => throw .noModel
  | some r =>
    if (← state s).busy then throw .busy
    modify (change s fun x => { x with busy := true })
    (solveTaken engine sink s r values).ensuring (change s fun x => { x with busy := false })

/-! ### Listeners -/

/-- What a listener can do when it receives a line. -/
inductive Reaction
  | look
  | solve
  | abort
  | setParameters
  | fail
  deriving DecidableEq, Repr

/-- The word for a reaction. -/
def Reaction.word : Reaction → String
  | look => "busy"
  | solve => "solve"
  | abort => "abort"
  | setParameters => "set_parameters"
  | fail => "raise"

/-- The reaction of a word. -/
def Reaction.ofWord? (s : String) : Option Reaction :=
  [look, solve, abort, setParameters, fail].find? (·.word == s)

/-- Add an entry to the transcript. -/
def record (x : Remark) : Action Unit :=
  modify fun w => { w with transcript := w.transcript ++ [x] }

/-- Make a request and record whether it was refused. -/
def recordRequest {α : Type} (r : Reaction) (request : Action α) : Action Unit := do
  match ← request.attempt with
  | .ok _ => record (.request r.word none)
  | .error fault => record (.request r.word (some fault))

/-- Do what a listener does. A request to solve finds its solver busy, so that the listener is not
needed for it. -/
def react (engine : Engine) (s : Ref Solver) (model : Option (Ref Model)) (r : Reaction) :
    Action Unit :=
  match r with
  | .look => do record (.busy (← state s).busy)
  | .solve => recordRequest r (solve engine none s model [])
  | .abort => recordRequest r (abort s)
  | .setParameters => recordRequest r (setParameters s)
  | .fail => throw (.sinkFailed "sink failed")

/-- A listener that records each line and reacts to some of them. -/
def listener (engine : Engine) (s : Ref Solver) (model : Option (Ref Model))
    (reactions : List (String × List Reaction)) : Sink := fun line => do
  record (.line line)
  ((reactions.lookup line).getD []).forM (react engine s model)

end Solver

end Optimization
