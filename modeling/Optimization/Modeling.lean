import Optimization.Workspace

/-!
# Building models

The operations on the variables, constraints and models of a workspace. A refused operation leaves
the model as it was.
-/

namespace Optimization.Modeling

/-- Make a variable. -/
def newVariable (request : Variable.Request) : Action Variable := do
  let w ← get
  let (v, intervals) ← .of (request.make w.intervals)
  set { w with intervals }
  pure v

/-- The bounds of a variable as they stand. -/
def interval (v : Variable) : Action Interval := do pure ((← get).intervals.get v.cell)

/-- Set the bounds of a variable that are given, unread and unchecked. -/
def setBounds (v : Variable) (lower upper : Option Scalar) : Action Unit :=
  modify fun w =>
    let old := w.intervals.get v.cell
    { w with intervals := w.intervals.put v.cell ⟨lower.getD old.lower, upper.getD old.upper⟩ }

/-- Keep a constraint in a cell of its own. -/
def newConstraint (c : Constraint) : Action (Ref Constraint) := do
  let w ← get
  set { w with constraints := w.constraints.push c }
  pure w.constraints.next

/-- A constraint as it stands. -/
def constraint (r : Ref Constraint) : Action Constraint := do pure ((← get).constraints.get r)

/-- Keep a model in a cell of its own. -/
def newModel (m : Model) : Action (Ref Model) := do
  let w ← get
  set { w with models := w.models.push m }
  pure w.models.next

/-- A model as it stands. -/
def model (r : Ref Model) : Action Model := do pure ((← get).models.get r)

/-- Replace a model. -/
def store (r : Ref Model) (m : Model) : Action Unit :=
  modify fun w => { w with models := w.models.put r m }

/-- Add a variable to a model. -/
def addVariable (r : Ref Model) (v : Variable) : Action Unit := do
  store r (← .of ((← model r).addVariable v))

/-- Make a variable and add it to a model. -/
def addNewVariable (r : Ref Model) (request : Variable.Request) : Action Variable := do
  let v ← newVariable request
  addVariable r v
  pure v

/-- Add a constraint to a model, which may name the constraint by that. -/
def addConstraint (r : Ref Model) (c : Ref Constraint) (name : Option String) : Action Unit :=
  modify fun w =>
    let (m, constraints) := (w.models.get r).addConstraint w.constraints c name
    { w with models := w.models.put r m, constraints }

/-- Add an objective to a model. -/
def addObjective (r : Ref Model) (o : Objective) : Action Unit :=
  modify fun w => { w with models := w.models.put r ((w.models.get r).addObjective o) }

/-- Put a variable at the end of a model's list, past all checks. -/
def appendVariable (r : Ref Model) (v : Variable) : Action Unit :=
  modify fun w =>
    let m := w.models.get r
    { w with models := w.models.put r { m with decisions := m.decisions ++ [v] } }

/-- Put a constraint at the end of a model's list, past all checks. -/
def appendConstraint (r : Ref Model) (c : Ref Constraint) : Action Unit :=
  modify fun w =>
    let m := w.models.get r
    { w with models := w.models.put r { m with constraints := m.constraints ++ [c] } }

end Optimization.Modeling
