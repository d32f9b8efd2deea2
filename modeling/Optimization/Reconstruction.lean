import Optimization.Modeling
import Optimization.Problem.Lifetime

/-!
# Models from problems

The columns, the objective and the rows of a problem are added to a model as variables, an
objective and constraints.

* A column without a name is called `x` and its number.
* All variables are integer or continuous by the kinds of their columns.
* The first free row stands for the objective and is left out.
* Names are compared with those that the model already has before anything is added.
-/

namespace Optimization.Reconstruction

/-- The request for the variable of column `j`. -/
def variableRequest (j : Nat) (c : Column) : Variable.Request :=
  let (lower, upper) := c.span.bounds
  { name := c.name.getD s!"x{j}"
    lower := .real lower
    upper := .real upper
    domain := .text (if c.kind = .continuous then Domain.continuous else .integer).text }

/-- The variables of all columns, not yet in any model. -/
def newVariables (p : Problem) : Action (List Variable) :=
  p.columns.zipIdx.mapM fun (c, k) => Modeling.newVariable (variableRequest (k + 1) c)

/-- The names of new variables that a model already uses. -/
def clashes (m : Model) (vs : List Variable) : List String :=
  (vs.map (·.name)).filter fun name => m.decisions.any (·.name == name)

/-- The objective of a problem over the variables of its columns. -/
def objective (p : Problem) (vs : List Variable) : Except Fault Objective := do
  let weights := (vs.zip p.columns).map fun (v, c) => (v, Scalar.real c.weight)
  let e ← Expression.ofTerms weights (.real p.constant)
  pure ⟨e, Objective.nameOr p.objectiveName, if p.maximize then .maximize else .minimize⟩

/-- The constraint of a row over the variables of the columns. -/
def rowConstraint (vs : List Variable) (r : Row) : Except Fault Constraint := do
  let terms := r.entries.filterMap fun (j, x) => (vs[j - 1]?).map fun v => (v, Scalar.real x)
  let e ← Expression.ofTerms terms (.real 0.0)
  let (lower, upper) := r.span.bounds
  pure ⟨e, r.name, lower, upper⟩

/-- The rows without the first free one. -/
def constraintRows : List Row → List Row
  | [] => []
  | r :: rest => if r.span.type = .free then rest else r :: constraintRows rest

/-- Add the constraint of a row to a model. -/
def addRow (m : Ref Model) (vs : List Variable) (r : Row) : Action Unit := do
  let c ← Modeling.newConstraint (← .of (rowConstraint vs r))
  Modeling.addConstraint m c none

/-- Add the content of a problem to a model. -/
def addProblem (m : Ref Model) (p : Problem) : Action Unit := do
  let vs ← newVariables p
  let names := clashes (← Modeling.model m) vs
  unless names.isEmpty do throw (.nameClash names)
  vs.forM (Modeling.addVariable m)
  Modeling.addObjective m (← .of (objective p vs))
  (constraintRows p.rows).forM (addRow m vs)
  let model ← Modeling.model m
  .note .info .loader
    (s!"Loaded {p.columnCount} variables ({kindWord p}) and {model.constraints.length} "
      ++ s!"constraints into model {model.name.quoted}")
where
  /-- The word for the kind of a problem. -/
  kindWord (p : Problem) : String := if p.isMixedInteger then "MIP" else "LP"

/-- Add the content of a problem of the workspace to a model. -/
def reconstruct (m : Ref Model) (r : Ref Lifetime) : Action Unit := do
  addProblem m (← Problem.live r)

end Optimization.Reconstruction
