import Optimization.Expression.Arithmetic

/-!
# Constraints

A constraint keeps an expression between two bounds. Comparisons of expressions become constraints
without a constant: both sides are subtracted, and the constant moves into the bounds.

* `compare` : `lhs <= rhs`, `lhs >= rhs`, `lhs == rhs`;
* `between` : `lower <= e <= upper`.
-/

namespace Optimization
open Decimal (plain infinity negativeInfinity)

/-- An expression between two bounds. -/
structure Constraint where
  expression : Expression
  name : Option String
  lower : Float
  upper : Float

instance : Inhabited Constraint := ⟨⟨.ofFloat 0.0, none, negativeInfinity, infinity⟩⟩

/-- The comparisons that a constraint can express. -/
inductive Sense
  | atMost
  | atLeast
  | equal
  deriving DecidableEq, Repr

namespace Sense

/-- The symbol of a sense. -/
def text : Sense → String
  | atMost => "<="
  | atLeast => ">="
  | equal => "=="

/-- The sense of a symbol. -/
def ofText? (s : String) : Option Sense := [atMost, atLeast, equal].find? (·.text == s)

/-- The sense that a scalar names. -/
def ofScalar (x : Scalar) : Except Fault Sense :=
  match x with
  | .text s =>
    match ofText? s with
    | some sense => pure sense
    | none => throw (.unknownSense x.quoted)
  | x => throw (.unknownSense x.quoted)

/-- The bounds of an expression whose constant moved to the other side as `value`. -/
def bounds (sense : Sense) (value : Float) : Float × Float :=
  match sense with
  | atMost => (negativeInfinity, value)
  | atLeast => (value, infinity)
  | equal => (value, value)

end Sense

namespace Constraint

/-- The constraint `e sense 0`. -/
def ofSense (e : Expression) (sense : Sense) : Constraint :=
  let (lower, upper) := sense.bounds (-e.constant)
  ⟨Expression.clean ⟨e.factors, 0.0⟩, none, lower, upper⟩

/-- The constraint `lhs sense rhs`. -/
def compare (lhs rhs : Expression) (sense : Sense) : Except Fault Constraint := do
  pure (ofSense (← lhs.sub rhs) sense)

/-- The constraint `lower <= e <= upper`. -/
def between (lower : Float) (e : Expression) (upper : Float) : Except Fault Constraint :=
  if lower > upper then throw (.invertedRange lower upper)
  else pure ⟨Expression.clean ⟨e.factors, 0.0⟩, none, lower - e.constant, upper - e.constant⟩

/-- The text of a constraint. -/
def toText (c : Constraint) : String :=
  s!"Constraint({plain c.lower} <= {c.expression.toText} <= "
    ++ s!"{plain c.upper}, name={plainName c.name})"

end Constraint

end Optimization
