import Optimization.Keyed
import Optimization.Variable

/-!
# Expressions

An expression is a sum of terms `factor * variable ^ exponent` and a constant. Terms stand in the
order in which their powers were first used; a power occurs once.

* A factor whose magnitude is at most `1e-15`, or that is not a number, counts as zero, and its
  term is left out.
* Factors given as integers stay integers until they are combined with a float.
-/

namespace Optimization
open Decimal (plain)

/-- A variable raised to an exponent. -/
structure Power where
  var : Variable
  exponent : Scalar

/-- Powers are equal when variable and exponent are; exponents are compared by value. -/
instance : BEq Power := ⟨fun p q => p.var == q.var && p.exponent.same q.exponent⟩

namespace Power

/-- The first power of a variable. -/
def first (v : Variable) : Power := ⟨v, .number .one⟩

/-- The exponent is one. -/
def isLinear (p : Power) : Bool := p.exponent.same (.number .one)

/-- The text of a power: the exponent is left out when it is one. -/
def toText (p : Power) : String :=
  p.var.name ++ if p.isLinear then "" else "^" ++ p.exponent.toText

end Power

/-- A summand on its own, with any scalar as its factor. -/
structure Term where
  power : Power
  factor : Scalar

/-- The text of a term. -/
def Term.toText (t : Term) : String := t.factor.toText ++ "*" ++ t.power.toText

/-- A sum of terms and a constant. -/
structure Expression where
  factors : List (Power × Number)
  constant : Float

namespace Expression

/-- Leave out the terms whose factor counts as zero. -/
def clean (e : Expression) : Expression :=
  { e with factors := e.factors.filter (·.2.isSignificant) }

/-- The expression of one variable. -/
def ofVariable (v : Variable) : Expression := ⟨[(.first v, .real 1.0)], 0.0⟩

/-- The expression without terms. -/
def ofFloat (x : Float) : Expression := ⟨[], x⟩

/-- An expression from its factors, the last factor of a repeated power, and its constant. -/
def ofFactors (entries : List (Power × Number)) (constant : Float) : Expression :=
  clean ⟨Keyed.ofEntries entries, constant⟩

/-- An expression without terms, from any scalar that reads as a float. -/
def ofConstant (x : Scalar) : Except Fault Expression := do pure (ofFloat (← x.toFloat))

/-- Add a float to the factor of a power, which is zero if there is no such term. -/
def accumulate (factors : List (Power × Number)) (p : Power) (x : Float) :
    Except Fault (List (Power × Number)) := do
  let old ← match factors.lookup p with
    | some y => y.toFloat
    | none => pure 0.0
  pure (Keyed.put p (.real (old + x)) factors)

/-- The sum of first powers with the given factors; factors of one variable are added up before
zeros are left out. -/
def ofTerms (pairs : List (Variable × Scalar)) (constant : Scalar) : Except Fault Expression := do
  let start ← ofConstant constant
  let factors ← pairs.foldlM (fun xs (v, x) => do accumulate xs (.first v) (← x.toFloat))
    start.factors
  pure (clean ⟨factors, start.constant⟩)

/-- The terms in order. -/
def terms (e : Expression) : List Term := e.factors.map fun (p, x) => ⟨p, .number x⟩

/-- All exponents are one. -/
def isLinear (e : Expression) : Bool := e.factors.all (·.1.isLinear)

/-- The factor of the first power of a variable, zero if there is none. -/
def coefficient (e : Expression) (v : Variable) : Number :=
  (e.factors.lookup (.first v)).getD (.real 0.0)

/-- The number of terms. -/
def length (e : Expression) : Nat := e.factors.length

/-- Texts joined by a plus sign, or by the minus sign that a text starts with. -/
def joinSigned : List String → String
  | [] => ""
  | first :: rest =>
    rest.foldl (fun s t =>
      if t.startsWith "-" then s ++ " - " ++ (t.drop 1).toString else s ++ " + " ++ t) first

/-- The text of an expression: its terms, and the constant unless it counts as zero beside
terms. -/
def toText (e : Expression) : String :=
  let terms := e.terms.map Term.toText
  joinSigned (if e.constant.abs > 1e-15 || terms.isEmpty then terms ++ [plain e.constant] else terms)

@[simp] theorem ofFloat_factors (x : Float) : (ofFloat x).factors = [] := rfl
@[simp] theorem ofFloat_constant (x : Float) : (ofFloat x).constant = x := rfl
@[simp] theorem clean_constant (e : Expression) : e.clean.constant = e.constant := rfl

/-- Cleaning twice leaves out nothing more. -/
@[simp] theorem clean_clean (e : Expression) : e.clean.clean = e.clean := by
  simp [clean]

end Expression

end Optimization
