import Optimization.Engine
import Optimization.LinearProgram.Search
import Optimization.Status

/-!
# Runs in exact arithmetic

The runs of an engine that solves problems in exact arithmetic and rounds what it found.

* A run is refused, with a line that says why, when a row or column has two different bounds that
  are out of order, or an integer column has a bound that is no integer.
* A problem without coefficients is solved directly and knows no limits. Otherwise a time limit of
  zero ends a run at once, and an iteration limit of zero ends it if any step is needed.
* With presolving, a problem without an optimum is reported by the return code.
-/

namespace Optimization.Engine.Exact
open Decimal (general)

/-- The return codes of runs. -/
inductive Code
  | success
  | incorrectBounds
  | failure
  | iterationLimit
  | timeLimit
  | infeasible
  | unbounded
  | noRelaxation
  deriving DecidableEq, Repr

/-- The number of a return code. -/
def Code.number : Code → Int
  | success => 0
  | incorrectBounds => 4
  | failure => 5
  | iterationLimit => 8
  | timeLimit => 9
  | infeasible => 10
  | unbounded => 11
  | noRelaxation => 12

/-- A run that ends without an outcome; the values of an earlier run stay. -/
def stopped (code : Code) (earlier : Outcome) (lines : List String) : Run :=
  { code := code.number, outcome := { values := earlier.values }, lines }

/-- The lines that a run writes at its message level. -/
def messages (level : Int) (line : String) : List String := if 1 ≤ level then [line] else []

/-! ### Bounds -/

/-- What is wrong with the bounds of a row or column. -/
def boundsText (what : String) (i : Nat) (s : Span) : String :=
  s!"{what} {i}: lb = {general 6 s.lower}, ub = {general 6 s.upper}; incorrect bounds"

/-- The first of several spans with bounds out of order. -/
def firstIncorrect? (what : String) (spans : List Span) : Option String :=
  (spans.zipIdx.find? fun (s, _) => s.isIncorrect).map fun (s, k) => boundsText what (k + 1) s

/-- What is wrong with the bounds of a problem, rows before columns. -/
def incorrectBounds? (p : Problem) : Option String :=
  match firstIncorrect? "row" (p.rows.map (·.span)) with
  | some text => some text
  | none => firstIncorrect? "column" (p.columns.map (·.span))

/-- A float is an integer. -/
def isWhole (x : Float) : Bool := x.floor == x

/-- What is wrong with the bounds of an integer column. -/
def fractionText (j : Nat) (side : String) (x : Float) : String :=
  s!"integer column {j} has non-integer {side} {general 6 x}"

/-- The bound of an integer column that is no integer. -/
def fractionalBound? (c : Column) (j : Nat) : Option String :=
  if !c.integral then none
  else
    match c.span.type with
    | .fixed =>
      if isWhole c.span.lower then none else some (fractionText j "fixed value" c.span.lower)
    | t =>
      if t.hasLower && !isWhole c.span.lower then
        some (fractionText j "lower bound" c.span.lower)
      else if t.hasUpper && !isWhole c.span.upper then
        some (fractionText j "upper bound" c.span.upper)
      else none

/-- The first bound of an integer column that is no integer. -/
def firstFractionalBound? (p : Problem) : Option String :=
  p.columns.zipIdx.findSome? fun (c, k) => fractionalBound? c (k + 1)

/-! ### The simplex method -/

/-- The objective of a problem at exact values of its columns, and the values, rounded. -/
def found (status : EngineStatus) (p : Problem) (values : Array Rat) : Outcome :=
  let terms := p.columns.zipIdx.map fun (c, k) => Limits.exact c.weight * values.getD k 0
  { status := status.code
    objective := Decimal.nearest (Limits.exact p.constant + terms.foldl (· + ·) 0)
    values := (List.range p.columnCount).map fun k => Decimal.nearest (values.getD k 0) }

/-- The status that a verdict means. -/
def status : Tableau.Verdict → EngineStatus
  | .optimal => .optimal
  | .infeasible => .noFeasible
  | .unbounded => .unbounded
  | .unfinished => .undefined

/-- The return code of a verdict. -/
def code (presolve : Bool) : Tableau.Verdict → Code
  | .optimal => .success
  | .infeasible => if presolve then .infeasible else .success
  | .unbounded => if presolve then .unbounded else .success
  | .unfinished => .failure

/-- Solve the relaxation of a problem. -/
def relax (presolve : Bool) (p : Problem) : Run :=
  let lp := LinearProgram.ofProblem p
  let (verdict, t) := (Tableau.ofProgram lp).solve lp.weights
  { code := (code presolve verdict).number, outcome := found (status verdict) p t.values }

/-- No step is needed to solve the relaxation of a problem. -/
def isSolved (p : Problem) : Bool :=
  let lp := LinearProgram.ofProblem p
  (Tableau.ofProgram lp).isFinal lp.weights

/-- Run the simplex method. -/
def simplex (control : SimplexControl) (p : Problem) : Run :=
  match incorrectBounds? p with
  | some text =>
    stopped .incorrectBounds p.relaxed
      (messages control.messageLevel ("glp_simplex: " ++ text))
  | none =>
    if p.nonzeroCount = 0 then relax false p
    else if control.timeLimit = 0 then stopped .timeLimit p.relaxed []
    else if control.iterationLimit = 0 && !isSolved p then stopped .iterationLimit p.relaxed []
    else relax control.presolve p

/-! ### The search -/

/-- Search for integer values. -/
def explore (p : Problem) : Run :=
  let integral (v : Nat) : Bool := (p.columns.getD v default).integral
  match (LinearProgram.ofProblem p).search integral with
  | some c => { outcome := found .optimal p c.values }
  | none =>
    { outcome := { status := EngineStatus.noFeasible.code, values := p.integral.values } }

/-- Run the search, which needs the outcome of a simplex run. -/
def search (control : SearchControl) (p : Problem) : Run :=
  match (incorrectBounds? p).orElse fun _ => firstFractionalBound? p with
  | some text =>
    stopped .incorrectBounds p.integral
      (messages control.messageLevel ("glp_intopt: " ++ text))
  | none =>
    if p.relaxed.status = EngineStatus.optimal.code then explore p
    else
      stopped .noRelaxation p.integral (messages control.messageLevel
        "glp_intopt: optimal basis to initial LP relaxation not provided")

end Optimization.Engine.Exact
