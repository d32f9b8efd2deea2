import Optimization.Operand.Arithmetic
import Optimization.Operand.Comparison

/-!
# Formulas

A formula is built from operands and names that stand for operands by arithmetic, comparison,
`between` and `sum`. Operands are evaluated from left to right before they are combined.
-/

namespace Optimization

/-- A formula over named operands. -/
inductive Formula
  | value (x : Operand)
  | name (s : String)
  | binary (op : Operator) (a b : Formula)
  | compare (r : Relation) (a b : Formula)
  | negate (a : Formula)
  | between (lower e upper : Formula)
  | sum (xs : List Formula)

namespace Formula

mutual

/-- The value of a formula, where names stand for operands. -/
def eval (env : String → Option Operand) : Formula → Except Fault Operand
  | value x => pure x
  | name s =>
    match env s with
    | some x => pure x
    | none => throw (.unboundName s)
  | binary op a b => do
    let a ← eval env a
    let b ← eval env b
    Operand.combine op a b
  | compare r a b => do
    let a ← eval env a
    let b ← eval env b
    Operand.compare r a b
  | negate a => do
    let a ← eval env a
    a.negate
  | between lower e upper => do
    let lower ← eval env lower
    let e ← eval env e
    let upper ← eval env upper
    Operand.between lower e upper
  | sum xs => do
    let xs ← evalAll env xs
    Operand.sum xs

/-- The values of several formulas, from left to right. -/
def evalAll (env : String → Option Operand) : List Formula → Except Fault (List Operand)
  | [] => pure []
  | a :: rest => do
    let x ← eval env a
    let xs ← evalAll env rest
    pure (x :: xs)

end

end Formula

end Optimization
