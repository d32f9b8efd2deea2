/-!
# Floats as exact binary fractions

A finite float is a sign, a natural mantissa and a power of two. This module takes floats
apart, gives their exact rational value, and rounds rationals back to the nearest float.

* `parts` : a float as not-a-number, an infinity, or `± mantissa * 2 ^ exponent`;
* `exactValue?` : the rational value of a finite float;
* `roundDiv` : division of naturals to the nearest integer, a tie to the even neighbour;
* `nearest` : the float closest to a rational, an overflow to infinity.
-/

namespace Optimization.Decimal
open Float.Model (UnpackedFloat)

/-- What a float stands for. -/
inductive Parts
  /-- Not a number. -/
  | notANumber
  /-- An infinity of the given sign. -/
  | infinite (negative : Bool)
  /-- The value `mantissa * 2 ^ exponent`, with its sign. -/
  | finite (negative : Bool) (mantissa : Nat) (exponent : Int)
  deriving DecidableEq, Repr

/-- A float taken apart; subnormals have the exponent of the smallest normals. -/
def parts (x : Float) : Parts :=
  match x.toModel.unpack with
  | .notANumber => .notANumber
  | .infinity s => .infinite (s == .negative)
  | .zero s => .finite (s == .negative) 0 0
  | .finite s mantissa exponent _ => .finite (s == .negative) mantissa exponent

/-- The rational `± mantissa * 2 ^ exponent`. -/
def scaled (negative : Bool) (mantissa : Nat) (exponent : Int) : Rat :=
  let size : Rat := (mantissa : Rat) * (2 : Rat) ^ exponent
  if negative then -size else size

/-- The rational value of a finite float, nothing for an infinity or not-a-number. -/
def exactValue? (x : Float) : Option Rat :=
  match parts x with
  | .finite negative mantissa exponent => some (scaled negative mantissa exponent)
  | _ => none

/-- The positive infinity. -/
def infinity : Float := Float.ofBits 0x7FF0000000000000

/-- The negative infinity. -/
def negativeInfinity : Float := Float.ofBits 0xFFF0000000000000

/-- The value that is not a number. -/
def notANumber : Float := Float.ofBits 0x7FF8000000000000

/-- The quotient of two naturals rounded to the nearest integer, a tie to the even one. -/
def roundDiv (n d : Nat) : Nat :=
  let q := n / d
  let r := n % d
  if 2 * r < d then q
  else if d < 2 * r then q + 1
  else if q % 2 = 0 then q
  else q + 1

/-- A power of two applied to a ratio. -/
def shiftRatio (n d : Nat) (k : Int) : Nat × Nat :=
  if k < 0 then (n, d * Nat.pow 2 k.natAbs) else (n * Nat.pow 2 k.natAbs, d)

/-- The exponent of the float nearest to `n / d` for positive `n` and `d`: the mantissa has 53
bits, or the exponent is that of the subnormals. -/
def leadingExponent (n d : Nat) : Int :=
  let guess : Int := (n.log2 : Int) - (d.log2 : Int) - 53
  let ratio := shiftRatio n d (-guess)
  max (if ratio.1 < ratio.2 * Nat.pow 2 53 then guess else guess + 1) (-1074)

/-- The bits of the float nearest to `n / d` for positive `n` and `d`, a tie to the even one.

`(exponent + 1074) * 2 ^ 52 + mantissa` is the pattern of normals and of subnormals, and a mantissa
that rounds up to `2 ^ 53` carries into the exponent by itself. -/
def nearestBits (n d : Nat) : Nat :=
  let exponent := leadingExponent n d
  let ratio := shiftRatio n d (-exponent)
  min ((exponent + 1074).toNat * Nat.pow 2 52 + roundDiv ratio.1 ratio.2) (2047 * Nat.pow 2 52)

/-- The float nearest to a signed ratio of naturals. -/
def nearestRatio (negative : Bool) (n d : Nat) : Float :=
  let bits := if n = 0 then 0 else nearestBits n d
  Float.ofBits (UInt64.ofNat (if negative then Nat.pow 2 63 + bits else bits))

/-- The float nearest to a rational, an overflow to infinity. -/
def nearest (q : Rat) : Float :=
  nearestRatio (decide (q < 0)) q.num.natAbs q.den

/-- The float nearest to an integer. -/
def nearestInt (n : Int) : Float :=
  nearestRatio (decide (n < 0)) n.natAbs 1

/-- The integer part of `± mantissa * 2 ^ exponent`: the fraction is dropped. -/
def truncated (negative : Bool) (mantissa : Nat) (exponent : Int) : Int :=
  let unit := Nat.pow 2 exponent.natAbs
  let size := if exponent < 0 then mantissa / unit else mantissa * unit
  if negative then -(size : Int) else size

end Optimization.Decimal
