import Optimization.Engine
import Optimization.Workspace

/-!
# Lifetimes of problems

A problem lives in a cell of the workspace until it is freed. Freeing is done once and noted;
whatever else is asked of a freed problem is refused before anything happens.

* `create`, `free`, `within` : the beginning, the end, and a scope that ends with the end;
* `Request`, `answer` : everything that can be asked of a problem;
* `Use`, `use` : requests, runs of a method, and the two ends of a scope.
-/

namespace Optimization.Problem

/-- Free a problem unless it is freed already. -/
def release (r : Ref Lifetime) (w : Workspace) : Workspace :=
  match w.problems.get r with
  | .live _ => { w with problems := w.problems.put r .freed, deletions := w.deletions ++ [r] }
  | .freed => w

/-- Free a problem. -/
def free (r : Ref Lifetime) : Action Unit := modify (release r)

/-- A scope at whose end a problem is freed, whatever happens in it. -/
def within {α : Type} (r : Ref Lifetime) (body : Action α) : Action α := body.ensuring (release r)

/-- Add a problem to the workspace. -/
def adopt (p : Problem) : Action (Ref Lifetime) := do
  let w ← get
  set { w with problems := w.problems.push (.live p) }
  pure w.problems.next

/-- The problem in a cell, which must not be freed. -/
def live (r : Ref Lifetime) : Action Problem := do
  match (← get).problems.get r with
  | .live p => pure p
  | .freed => throw .freed

/-- Replace a problem. -/
def store (r : Ref Lifetime) (p : Problem) : Action Unit :=
  modify fun w => { w with problems := w.problems.put r (.live p) }

/-- Change a problem, which must not be freed. -/
def change (r : Ref Lifetime) (f : Problem → Problem) : Action Unit := do
  store r (f (← live r))

/-- Create an empty problem with a name, unless the name is empty. -/
def create (name : Scalar) : Action (Ref Lifetime) := do
  let r ← adopt {}
  if name.isTrue then
    let name ← .of (limitName name.toText)
    change r fun p => { p with name := keptName name }
  pure r

/-! ### Runs of an engine -/

/-- Record a call of an engine. -/
def recordCall (r : Ref Lifetime) (method : Method) (run : Run) : Action Unit :=
  modify fun w => { w with calls := w.calls ++ [⟨r, method, run.code⟩] }

/-- Run the simplex method; the outcome is kept with the problem. -/
def simplex (engine : Engine) (control : SimplexControl) (r : Ref Lifetime) : Action Run := do
  let run := engine.simplex control (← live r)
  recordCall r .simplex run
  change r fun p => { p with relaxed := run.outcome }
  pure run

/-- Run the search for integer values; the outcome is kept with the problem. -/
def search (engine : Engine) (control : SearchControl) (r : Ref Lifetime) : Action Run := do
  let run := engine.search control (← live r)
  recordCall r .search run
  change r fun p => { p with integral := run.outcome }
  pure run

/-! ### Requests -/

/-- What can be asked of a problem. -/
inductive Request
  | name
  | rowCount
  | columnCount
  | nonzeroCount
  | isMixedInteger
  | objectiveName
  | isMaximize
  | text
  | isValid
  | addColumns (count : Scalar)
  | addRows (count : Scalar)
  | setColumn (j name : Scalar) (type : BoundType) (lower upper kind : Scalar)
  | setRow (i name : Scalar) (type : BoundType) (lower upper : Scalar)
  | columnName (j : Scalar)
  | rowName (i : Scalar)
  | columnBounds (j : Scalar)
  | rowBounds (i : Scalar)
  | columnKind (j : Scalar)
  | setObjective (name maximize : Scalar)
  | setWeight (j x : Scalar)
  | weight (j : Scalar)
  | matrixRow (i : Scalar)
  | loadMatrix (rows columns coefficients : List Scalar)
  | matrix
  | simplex
  | search
  | status
  | integralStatus
  | objectiveValue
  | integralObjectiveValue
  | columnValue (j : Scalar)
  | integralColumnValue (j : Scalar)
  | free

/-- The answer to a request. -/
inductive Answer
  | scalar (x : Scalar)
  /-- A number found by an engine. -/
  | found (x : Float)
  | bounds (type : BoundType) (lower upper : Float)
  | entries (entries : List (Nat × Float))
  | matrix (rows : List (List Float))

/-- An optional name as a scalar. -/
def nameScalar : Option String → Scalar
  | some s => .text s
  | none => .nothing

/-- Positions are 32-bit integers. -/
def position (x : Scalar) : Except Fault Nat := do pure (← x.toEngineInteger).toNat

/-- The kind of column that a scalar asks for. -/
def readKind (x : Scalar) : Except Fault ColumnKind := do
  match ← x.toEngineInteger with
  | 2 => pure .integer
  | 3 => pure .binary
  | _ => pure .continuous

/-- Whether a scalar is at most zero; only numbers can be compared. -/
def atMostZero : Scalar → Except Fault Bool
  | .number x => pure (x.holds .le (.integer 0))
  | x => throw (.undefinedOrder .le x.kind .integer)

/-- Add a number of items, none for a number at most zero, and answer the position of the first
one. -/
def extend (r : Ref Lifetime) (count : Scalar) (size : Problem → Nat)
    (add : Problem → Nat → Problem) : Action Answer := do
  let few ← .of (atMostZero count)
  let p ← live r
  unless few do
    let n ← .of count.toEngineInteger
    store r (add p n.toNat)
  pure (.scalar (.integer (size p + 1)))

/-- The done answer. -/
def done : Answer := .scalar .nothing

/-- Set name, bounds and kind of a column, each after its arguments are read. -/
def requestColumn (r : Ref Lifetime) (j name : Scalar) (type : BoundType)
    (lower upper kind : Scalar) : Action Answer := do
  let _ ← live r
  let name ← .of (limitName name.toText)
  let j ← .of (position j)
  change r (·.nameColumn j name)
  let lower ← .of lower.toFloat
  let upper ← .of upper.toFloat
  change r (·.boundColumn j type lower upper)
  let kind ← .of (readKind kind)
  change r (·.typeColumn j kind)
  pure done

/-- Set name and bounds of a row, each after its arguments are read. -/
def requestRow (r : Ref Lifetime) (i name : Scalar) (type : BoundType) (lower upper : Scalar) :
    Action Answer := do
  let _ ← live r
  let name ← .of (limitName name.toText)
  let i ← .of (position i)
  change r (·.nameRow i name)
  let lower ← .of lower.toFloat
  let upper ← .of upper.toFloat
  change r (·.boundRow i type lower upper)
  pure done

/-- The entries of three parallel sequences behind their first slot. -/
def zipEntries (rows columns : List Int) (coefficients : List Float) : List Entry :=
  ((rows.zip (columns.zip coefficients)).drop 1).map fun (i, j, x) => ⟨i.toNat, j.toNat, x⟩

/-- Replace the matrix by three parallel sequences. -/
def loadArrays (r : Ref Lifetime) (a : ParallelArrays) : Action Unit := do
  let p ← live r
  if a.rows.length != a.coefficients.length || a.columns.length != a.coefficients.length then
    throw .unequalLengths
  store r (p.load (zipEntries a.rows a.columns a.coefficients))

/-- Three sequences of scalars must have one length. -/
def checkLengths (rows columns coefficients : List Scalar) : Except Fault Unit :=
  if rows.length = coefficients.length ∧ columns.length = coefficients.length then pure ()
  else throw .unequalLengths

/-- Read three sequences of scalars. -/
def readArrays (rows columns coefficients : List Scalar) : Except Fault ParallelArrays := do
  let rows ← rows.mapM (·.toEngineInteger)
  let columns ← columns.mapM (·.toEngineInteger)
  pure ⟨rows, columns, ← coefficients.mapM (·.toFloat)⟩

/-- The answer of a problem to a question that changes nothing. -/
def ask (r : Ref Lifetime) (f : Problem → Answer) : Action Answer := do pure (f (← live r))

/-- The answer of a problem to a question about a position. -/
def askAt (r : Ref Lifetime) (x : Scalar) (f : Problem → Nat → Answer) : Action Answer := do
  let p ← live r
  pure (f p (← .of (position x)))

/-- The answer that gives bounds. -/
def boundsAnswer (s : Span) : Answer := .bounds s.type s.bounds.1 s.bounds.2

/-- The value of a column in an outcome. -/
def valueAt (o : Outcome) (j : Nat) : Float := itemAt o.values j

/-- Answer a request. -/
def answer (engine : Engine) (r : Ref Lifetime) : Request → Action Answer
  | .name => ask r fun p => .scalar (nameScalar p.name)
  | .rowCount => ask r fun p => .scalar (.integer p.rowCount)
  | .columnCount => ask r fun p => .scalar (.integer p.columnCount)
  | .nonzeroCount => ask r fun p => .scalar (.integer p.nonzeroCount)
  | .isMixedInteger => ask r fun p => .scalar (.truth p.isMixedInteger)
  | .objectiveName => ask r fun p => .scalar (nameScalar p.objectiveName)
  | .isMaximize => ask r fun p => .scalar (.truth p.maximize)
  | .text => do
    match (← get).problems.get r with
    | .live p => pure (.scalar (.text p.toText))
    | .freed => pure (.scalar (.text "<optiglpk.Problem (freed)>"))
  | .isValid => do
    match (← get).problems.get r with
    | .live _ => pure (.scalar (.truth true))
    | .freed => pure (.scalar (.truth false))
  | .addColumns count => extend r count columnCount addColumns
  | .addRows count => extend r count Problem.rowCount addRows
  | .setColumn j name type lower upper kind => requestColumn r j name type lower upper kind
  | .setRow i name type lower upper => requestRow r i name type lower upper
  | .columnName j => askAt r j fun p j => .scalar (nameScalar (p.column j).name)
  | .rowName i => askAt r i fun p i => .scalar (nameScalar (p.row i).name)
  | .columnBounds j => askAt r j fun p j => boundsAnswer (p.column j).span
  | .rowBounds i => askAt r i fun p i => boundsAnswer (p.row i).span
  | .columnKind j => askAt r j fun p j => .scalar (.integer (p.column j).kind.code)
  | .setObjective name maximize => do
    let _ ← live r
    let name ← .of (limitName name.toText)
    change r (·.setObjective name maximize.isTrue)
    pure done
  | .setWeight j x => do
    let _ ← live r
    let x ← .of x.toFloat
    let j ← .of (position j)
    change r (·.setWeight j x)
    pure done
  | .weight j => askAt r j fun p j => .scalar (.real (p.weight j))
  | .matrixRow i => askAt r i fun p i => .entries (p.row i).entries
  | .loadMatrix rows columns coefficients => do
    let _ ← live r
    .of (checkLengths rows columns coefficients)
    loadArrays r (← .of (readArrays rows columns coefficients))
    pure done
  | .matrix => ask r fun p => .matrix p.dense
  | .simplex => do pure (.scalar (.integer (← simplex engine {} r).code))
  | .search => do pure (.scalar (.integer (← search engine {} r).code))
  | .status => ask r fun p => .scalar (.integer p.relaxed.status)
  | .integralStatus => ask r fun p => .scalar (.integer p.integral.status)
  | .objectiveValue => ask r fun p => .found p.relaxed.objective
  | .integralObjectiveValue => ask r fun p => .found p.integral.objective
  | .columnValue j => askAt r j fun p j => .found (valueAt p.relaxed j)
  | .integralColumnValue j => askAt r j fun p j => .found (valueAt p.integral j)
  | .free => do free r; pure done

/-! ### Uses -/

/-- What can be done with a problem from outside: ask something of it, run a method with its
control, and enter and leave a scope, in which something may have failed. -/
inductive Use
  | ask (request : Request)
  | simplex (control : SimplexControl)
  | search (control : SearchControl)
  | enter
  | leave (failure : Option Fault)

/-- Do something with a problem. Entering a scope does nothing, and leaving it frees the problem;
the answer is that a failure in the scope is not held back. -/
def use (engine : Engine) (r : Ref Lifetime) : Use → Action Answer
  | .ask request => answer engine r request
  | .simplex control => do pure (.scalar (.integer (← simplex engine control r).code))
  | .search control => do pure (.scalar (.integer (← search engine control r).code))
  | .enter => pure done
  | .leave _ => do free r; pure (.scalar (.truth false))

end Optimization.Problem
