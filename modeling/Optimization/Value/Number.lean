import Optimization.Fault
import Optimization.Decimal.Numeral

/-!
# Numbers

A number is a truth value, an integer of any size, or a float; a truth value counts as 0 or 1.

* Comparison is by exact value, also between an integer and a float.
* Arithmetic stays in the integers while both operands are integers and goes to the floats as soon
  as one operand is a float. An integer that no float can hold is refused.
-/

namespace Optimization
open Decimal

/-- A truth value, an integer or a float. -/
inductive Number
  | truth (b : Bool)
  | integer (n : Int)
  | real (x : Float)

namespace Number

/-- The kind of a number. -/
def kind : Number → Kind
  | truth _ => .truth
  | integer _ => .integer
  | real _ => .real

/-- The text of a number. -/
def toText : Number → String
  | truth true => "True"
  | truth false => "False"
  | integer n => toString n
  | real x => plain x

/-- The integer that a truth value or an integer stands for. -/
def whole? : Number → Option Int
  | truth b => some (if b then 1 else 0)
  | integer n => some n
  | real _ => none

/-- The float nearest to an integer, refused when it would overflow. -/
def floatOfInt (n : Int) : Except Fault Float :=
  let x := nearestInt n
  if x.isInf then throw .tooLarge else pure x

/-- A number as a float. -/
def toFloat : Number → Except Fault Float
  | truth b => pure (if b then 1.0 else 0.0)
  | integer n => floatOfInt n
  | real x => pure x

/-- The integer part of a number. -/
def toInteger : Number → Except Fault Int
  | truth b => pure (if b then 1 else 0)
  | integer n => pure n
  | real x =>
    match parts x with
    | .notANumber => throw .nanToInteger
    | .infinite _ => throw .infinityToInteger
    | .finite negative mantissa exponent => pure (truncated negative mantissa exponent)

/-- Everything but zero is true, not-a-number included. -/
def isTrue : Number → Bool
  | truth b => b
  | integer n => n != 0
  | real x => !(x == 0.0)

/-- A float beside an integer: infinities lie beyond all integers, and not-a-number is neither
below nor above nor equal. -/
def compareFloatInt (x : Float) (n : Int) : Option Ordering :=
  match parts x with
  | .notANumber => none
  | .infinite negative => some (if negative then .lt else .gt)
  | .finite negative mantissa exponent =>
    let q := scaled negative mantissa exponent
    some (if q < n then .lt else if (n : Rat) < q then .gt else .eq)

/-- Equality by exact value. -/
def same (a b : Number) : Bool :=
  match a, b with
  | real x, real y => x == y
  | real x, b => (b.whole?.bind (compareFloatInt x)) == some .eq
  | a, real y => (a.whole?.bind (compareFloatInt y)) == some .eq
  | a, b => a.whole? == b.whole?

/-- Strict order by exact value. -/
def less (a b : Number) : Bool :=
  match a, b with
  | real x, real y => x < y
  | real x, b => (b.whole?.bind (compareFloatInt x)) == some .lt
  | a, real y => (a.whole?.bind (compareFloatInt y)) == some .gt
  | a, b => decide (a.whole?.getD 0 < b.whole?.getD 0)

/-- Whether a comparison holds. -/
def holds (r : Relation) (a b : Number) : Bool :=
  match r with
  | .eq => a.same b
  | .ne => !a.same b
  | .lt => a.less b
  | .gt => b.less a
  | .le => a.less b || a.same b
  | .ge => b.less a || a.same b

/-- The number one. -/
def one : Number := integer 1

/-- Apply an operation of the integers or the one of the floats. -/
def lift (onInts : Int → Int → Int) (onFloats : Float → Float → Float) (a b : Number) :
    Except Fault Number :=
  match a.whole?, b.whole? with
  | some m, some n => pure (integer (onInts m n))
  | _, _ => do
    let x ← a.toFloat
    let y ← b.toFloat
    pure (real (onFloats x y))

/-- The sum. -/
def add (a b : Number) : Except Fault Number := lift (· + ·) (· + ·) a b

/-- The difference. -/
def sub (a b : Number) : Except Fault Number := lift (· - ·) (· - ·) a b

/-- The product. -/
def mul (a b : Number) : Except Fault Number := lift (· * ·) (· * ·) a b

/-- The quotient of two integers as the nearest float. -/
def divideIntegers (m n : Int) : Except Fault Float :=
  if n = 0 then throw .integerDivision
  else
    let x := nearestRatio (decide (m < 0) != decide (n < 0)) m.natAbs n.natAbs
    if x.isInf then throw .tooLarge else pure x

/-- The quotient, always a float. -/
def div (a b : Number) : Except Fault Number :=
  match a.whole?, b.whole? with
  | some m, some n => do pure (real (← divideIntegers m n))
  | _, _ => do
    let x ← a.toFloat
    let y ← b.toFloat
    if y == 0.0 then throw .floatDivision else pure (real (x / y))

/-- A power of floats; a fractional power of a negative number is not real. -/
def powFloats (x y : Float) : Except Fault Number :=
  if x == 0.0 && y < 0.0 && y.isFinite then throw .zeroToNegativePower
  else if x < 0.0 && x.isFinite && y.isFinite && !(y.floor == y) then throw .complexPower
  else
    let r := Float.pow x y
    if r.isInf && x.isFinite && y.isFinite then throw .tooLarge else pure (real r)

/-- The power; a natural power of an integer is an integer. -/
def pow (a b : Number) : Except Fault Number :=
  match a.whole?, b.whole? with
  | some m, some n =>
    if 0 ≤ n then pure (integer (Int.pow m n.toNat))
    else do powFloats (← floatOfInt m) (← floatOfInt n)
  | _, _ => do powFloats (← a.toFloat) (← b.toFloat)

/-- The negative; that of a truth value is an integer. -/
def neg : Number → Number
  | truth b => integer (if b then -1 else 0)
  | integer n => integer (-n)
  | real x => real (-x)

/-- The magnitude exceeds the limit below which a factor counts as zero. -/
def isSignificant : Number → Bool
  | truth b => b
  | integer n => n != 0
  | real x => x.abs > 1e-15

end Number

end Optimization
