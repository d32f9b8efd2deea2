import Optimization.Expression.Basic

/-!
# Arithmetic of expressions

Sums and differences merge equal powers: the powers of the left expression in its order, then
those that only the right one has in theirs. Products and quotients are by numbers only, and a
power is taken of a single variable only. All arithmetic is that of floats.
-/

namespace Optimization.Expression

/-- Add a multiple of the terms of an expression to given factors. -/
def mergeFactors (sign : Float) (xs ys : List (Power × Number)) :
    Except Fault (List (Power × Number)) :=
  ys.foldlM (fun xs (p, y) => do accumulate xs p (sign * (← y.toFloat))) xs

/-- The left expression and the right one times a sign. -/
def combine (sign : Float) (a b : Expression) : Except Fault Expression := do
  let factors ← mergeFactors sign a.factors b.factors
  pure (clean ⟨factors, a.constant + sign * b.constant⟩)

/-- An expression and a number times a sign. -/
def shift (sign : Float) (a : Expression) (x : Number) : Except Fault Expression := do
  pure { a with constant := a.constant + sign * (← x.toFloat) }

/-- The sum of two expressions. -/
def add (a b : Expression) : Except Fault Expression := combine 1.0 a b

/-- The difference of two expressions. -/
def sub (a b : Expression) : Except Fault Expression := combine (-1.0) a b

/-- The sum of an expression and a number. -/
def addNumber (a : Expression) (x : Number) : Except Fault Expression := shift 1.0 a x

/-- The difference of an expression and a number. -/
def subNumber (a : Expression) (x : Number) : Except Fault Expression := shift (-1.0) a x

/-- A multiple of an expression. -/
def scaleFloat (a : Expression) (s : Float) : Except Fault Expression := do
  let factors ← a.factors.mapM fun (p, x) => do pure (p, .real ((← x.toFloat) * s))
  pure (clean ⟨factors, a.constant * s⟩)

/-- The product of an expression and a number. -/
def scale (a : Expression) (x : Number) : Except Fault Expression := do
  scaleFloat a (← x.toFloat)

/-- The quotient of an expression by a number: the product with the inverse. -/
def divide (a : Expression) (x : Number) : Except Fault Expression := do
  let y ← x.toFloat
  if y == 0.0 then throw .floatDivision
  scaleFloat a (1.0 / y)

/-- The negative of an expression. -/
def negate (a : Expression) : Except Fault Expression := scaleFloat a (-1.0)

/-- A variable raised to an integer that is at least one. -/
def power (v : Variable) (exponent : Scalar) : Except Fault Expression :=
  match exponent with
  | .number x =>
    match x.whole? with
    | some n => if n < 1 then throw .notAPower else pure ⟨[(⟨v, exponent⟩, .real 1.0)], 0.0⟩
    | none => throw .notAPower
  | _ => throw .notAPower

end Optimization.Expression
