import Optimization.Operand.Basic

/-!
# Comparison of operands

Comparing a variable or an expression with something makes a constraint; strict comparison is not
defined, and a comparison for difference is false, since a constraint counts as true. Other
operands are compared to a truth value: scalars by value, objects by identity.
-/

namespace Optimization.Operand

/-- Compare two scalars. -/
def compareScalars (r : Relation) (x y : Scalar) : Except Fault Operand :=
  match x, y with
  | .number x, .number y => pure (truth (x.holds r y))
  | .text s, .text t =>
    pure (truth (match r with
      | .eq => s == t
      | .ne => s != t
      | .lt => decide (s < t)
      | .gt => decide (t < s)
      | .le => !decide (t < s)
      | .ge => !decide (s < t)))
  | x, y =>
    match r with
    | .eq => pure (truth (x.same y))
    | .ne => pure (truth (!x.same y))
    | r => throw (.undefinedOrder r x.kind y.kind)

/-- Two operands are the same object. -/
def identical (a b : Operand) : Bool :=
  match a, b with
  | constraint r, constraint s => r == s
  | model r, model s => r == s
  | problem r, problem s => r == s
  | triplets r, triplets s => r == s
  | indexMap r, indexMap s => r == s
  | solver r, solver s => r == s
  | _, _ => false

/-- Compare two operands neither of which is a variable or an expression. -/
def compareOthers (r : Relation) (a b : Operand) : Except Fault Operand :=
  match a, b with
  | scalar x, scalar y => compareScalars r x y
  | a, b =>
    match r with
    | .eq => pure (truth (identical a b))
    | .ne => pure (truth (!identical a b))
    | r => throw (.undefinedOrder r a.kind b.kind)

/-- The constraint that compares an expression with something. -/
def constrain (e : Expression) (sense : Sense) (b : Operand) : Except Fault Constraint := do
  Constraint.compare e (← b.toExpression) sense

/-- Compare an expression with something. -/
def compareTo (e : Expression) (r : Relation) (b : Operand) (unordered : Fault) :
    Except Fault Operand :=
  match r with
  | .le => do pure (made (← constrain e .atMost b))
  | .ge => do pure (made (← constrain e .atLeast b))
  | .eq => do pure (made (← constrain e .equal b))
  | .ne => do
    let _ ← constrain e .equal b
    pure (truth false)
  | .lt | .gt => throw unordered

/-- Compare two operands. A variable or an expression on the right alone is compared with the left
side instead. -/
def compare (r : Relation) (a b : Operand) : Except Fault Operand :=
  match a.linear?, b.linear? with
  | some e, _ => compareTo e r b (.undefinedOrder r a.kind b.kind)
  | none, some e => compareTo e r.flip a (.undefinedOrder r a.kind b.kind)
  | none, none => compareOthers r a b

/-- The constraint that keeps something between two bounds. -/
def between (lower e upper : Operand) : Except Fault Operand := do
  let e ← e.toExpression
  let lower ← lower.toFloat
  let upper ← upper.toFloat
  pure (made (← Constraint.between lower e upper))

/-- The constraint of a left side, a sense and a right side. -/
def comparison (lhs rhs : Operand) (sense : Scalar) : Except Fault Constraint := do
  let difference ← (← lhs.toExpression).sub (← rhs.toExpression)
  pure (Constraint.ofSense difference (← Sense.ofScalar sense))

end Optimization.Operand
