import Optimization.Modeling
import Optimization.Operand.Comparison
import Optimization.Problem.Lifetime
import Optimization.Translation

/-!
# Assembling models from operands

The parts of models are made from operands of any kind: what does not fit is refused before
anything changes.

* Where an expression is needed, variables and numbers stand for expressions.
* A constraint that was just made gets its cell when it is kept.
* An operand that lacks what is asked of it has no such property.
-/

namespace Optimization.Assembly

/-! ### Operands of one kind -/

/-- An operand that must be a variable. -/
def asVariable : Operand → Except Fault Variable
  | .decision v => pure v
  | _ => throw .noProperty

/-- An operand that must be an expression. -/
def asExpression : Operand → Except Fault Expression
  | .expression e => pure e
  | _ => throw .noProperty

/-- An operand that must be a model. -/
def asModel : Operand → Except Fault (Ref Model)
  | .model r => pure r
  | _ => throw .noProperty

/-- An operand that must be a problem. -/
def asProblem : Operand → Except Fault (Ref Lifetime)
  | .problem r => pure r
  | _ => throw .noProperty

/-- An operand that must be a matrix. -/
def asTriplets : Operand → Except Fault (Ref Triplets)
  | .triplets r => pure r
  | _ => throw .noProperty

/-- An operand that must be an index map. -/
def asIndexMap : Operand → Except Fault (Ref IndexMap)
  | .indexMap r => pure r
  | _ => throw .noProperty

/-- An operand that must be a solver. -/
def asSolver : Operand → Except Fault (Ref Solver)
  | .solver r => pure r
  | _ => throw .noProperty

/-- An operand whose constraint, if it was just made, is kept in a cell. -/
def keep : Operand → Action Operand
  | .made c => do pure (.constraint (← Modeling.newConstraint c))
  | x => pure x

/-! ### Expressions -/

/-- A factor must be a number. -/
def factor : Operand → Except Fault Number
  | .number x => pure x
  | x => throw (.undefinedMagnitude x.kind)

/-- The expression of given factors, the last one of a repeated power, and a constant. -/
def expression (entries : List (Power × Operand)) (constant : Scalar) :
    Except Fault Expression := do
  let constant ← constant.toFloat
  let factors ← (Keyed.ofEntries entries).mapM fun (p, x) => do pure (p, ← factor x)
  pure (.ofFactors factors constant)

/-- The factor of the first power of something in an expression, which is zero for all that is no
variable of it. -/
def coefficient (e v : Operand) : Except Fault Number := do
  let e ← asExpression e
  match v with
  | .decision v => pure (e.coefficient v)
  | v => do
    v.checkKey
    pure (.real 0.0)

/-- A copy of an expression. -/
def copy (e : Operand) : Except Fault Expression := do pure (← asExpression e).clean

/-! ### Constraints and objectives -/

/-- The constraint that keeps an operand between two bounds, in no order. -/
def constraint (e : Operand) (name : Option String) (lower upper : Scalar) :
    Except Fault Constraint := do
  let e ← e.toExpression
  let lower ← lower.toFloat
  let upper ← upper.toFloat
  pure ⟨e, name, lower, upper⟩

/-- The objective for an operand. -/
def objective (e : Operand) (name : Option String) (direction : Scalar) :
    Except Fault Objective := do
  let direction ← Direction.ofScalar direction
  pure ⟨← e.toExpression, Objective.nameOr name, direction⟩

/-! ### Models -/

/-- The variable of a model whose name an operand is. -/
def getVariable (m : Model) (name : Operand) : Except Fault Variable := do
  match name with
  | .text s => m.getVariable s
  | .decision v => throw (.missingKey v.toText)
  | x => do
    x.checkKey
    throw (.missingKey (← x.toScalar).quoted)

/-- Add an operand to a model, which must be a constraint. -/
def addConstraint (m : Ref Model) (c : Operand) (name : Option String) :
    Action (Ref Constraint) := do
  match ← keep c with
  | .constraint r => do
    Modeling.addConstraint m r name
    pure r
  | _ => throw .notAConstraint

/-- Add an objective to a model: an operand that is one, or one that is made for the operand. -/
def addObjective (m : Ref Model) (e : Operand) (name : Option String) (direction : Scalar) :
    Action Objective := do
  let o ← match e with
    | .objective o => pure o
    | e => .of (objective e name direction)
  Modeling.addObjective m o
  pure o

/-- Put an operand at the end of one of a model's lists, past all checks. -/
def append (m : Ref Model) (x : Operand) : Action Unit := do
  match ← keep x with
  | .decision v => Modeling.appendVariable m v
  | .constraint r => Modeling.appendConstraint m r
  | _ => throw .noProperty

/-! ### Matrices and index maps -/

/-- Keep an empty matrix in a cell of its own. -/
def newTriplets : Action (Ref Triplets) := do
  let w ← get
  set { w with triplets := w.triplets.push {} }
  pure w.triplets.next

/-- Read an entry and add it to a matrix. -/
def addEntry (r : Ref Triplets) (row column coefficient : Scalar) : Action Unit := do
  let w ← get
  let t ← .of ((w.triplets.get r).add row column coefficient)
  set { w with triplets := w.triplets.put r t }

/-- Keep an empty index map in a cell of its own. -/
def newIndexMap : Action (Ref IndexMap) := do
  let w ← get
  set { w with indexMaps := w.indexMaps.push {} }
  pure w.indexMaps.next

/-- Number a variable or a constraint. -/
def number (r : Ref IndexMap) (x : Operand) : Action Nat := do
  let x ← keep x
  let w ← get
  let m := w.indexMaps.get r
  match x with
  | .decision v => do
    let m ← .of (m.addVariable v)
    set { w with indexMaps := w.indexMaps.put r m }
    pure m.columnCount
  | .constraint c => do
    let m ← .of (m.addConstraint c (w.constraints.get c).name)
    set { w with indexMaps := w.indexMaps.put r m }
    pure m.rowCount
  | _ => throw .noProperty

/-- The number of a variable or a constraint. -/
def numberOf (r : Ref IndexMap) (x : Operand) : Action Nat := do
  let x ← keep x
  let w ← get
  let m := w.indexMaps.get r
  match x with
  | .decision v => .of (m.columnOf v)
  | .constraint c => .of (m.rowOf c (w.constraints.get c).toText)
  | _ => throw .noProperty

/-! ### Translation of a model on its own -/

/-- A model translated into a new problem, which may also get the matrix, and what is known about
it; the problem is freed on every exit. -/
def translated (m : Ref Model) (values : Overrides) (load : Bool) :
    Action (Problem × Translation × ParallelArrays) := do
  let r ← Problem.create (← Modeling.model m).name
  Problem.within r do
    let (p, t) ← Translation.translate (← Modeling.model m) values (← Problem.live r)
    Problem.store r p
    let arrays ← .of t.matrix.build
    if load then Problem.loadArrays r arrays
    pure (← Problem.live r, t, arrays)

end Optimization.Assembly
