import Optimization.Decimal.Binary

/-!
# Decimal text of floats

Every text is computed from the exact value of the float in integer arithmetic.

* `shortestDigits` : the fewest digits that read back as the same float, the nearest of those;
* `roundedDigits` : a given number of significant digits, a tie to the even neighbour;
* `plain` : the default text, shortest digits and always a point or an exponent;
* `general` : significant digits without trailing zeros, positional while the exponent is small;
* `fixed` : a given number of places after the point;
* `exponential` : one digit before the point, a given number after it.
-/

namespace Optimization.Decimal

/-- A positive decimal `0.d₁d₂… * 10 ^ point`. -/
structure Digits where
  /-- All digits read as one natural number. -/
  digits : Nat
  /-- How many digits there are. -/
  count : Nat
  /-- The place of the point, counted from the left of the first digit. -/
  point : Int
  deriving DecidableEq, Repr

/-- A power of ten applied to a ratio. -/
def tenfold (n d : Nat) (k : Int) : Nat × Nat :=
  if k < 0 then (n, d * Nat.pow 10 k.natAbs) else (n * Nat.pow 10 k.natAbs, d)

/-- The least `p` with `n / d < 10 ^ p`, for a positive ratio.

The binary logarithms give it up to two; the candidates are then compared exactly. -/
def magnitude (n d : Nat) : Int :=
  let guess := (((n.log2 : Int) - (d.log2 : Int)) * 30103).fdiv 100000 - 1
  let below (p : Int) : Bool := let (a, b) := tenfold n d (-p); decide (a < b)
  if below guess then guess
  else if below (guess + 1) then guess + 1
  else if below (guess + 2) then guess + 2
  else guess + 3

/-- Digits that reached the next power of ten are written with the point one place further. -/
def Digits.carried (digits count : Nat) (point : Int) : Digits :=
  if digits = Nat.pow 10 count then ⟨Nat.pow 10 (count - 1), count, point + 1⟩
  else ⟨digits, count, point⟩

/-- A positive ratio rounded to `count` significant digits. -/
def roundedDigits (n d count : Nat) : Digits :=
  let point := magnitude n d
  let (a, b) := tenfold n d ((count : Int) - point)
  .carried (roundDiv a b) count point

/-- The decimals that read back as the float `mantissa * 2 ^ exponent`: their least and greatest
value in quarters of the float's unit, and whether these ends belong to them. -/
def readBack (mantissa : Nat) (exponent : Int) : Nat × Nat × Bool :=
  let least := Nat.pow 2 52
  let low := if mantissa = least ∧ -1074 < exponent then 4 * mantissa - 1 else 4 * mantissa - 2
  (low, 4 * mantissa + 2, mantissa % 2 == 0)

/-- The grid point of `count` digits that reads back as the float: the nearest one if it does,
else one of the float's two neighbours on the grid. -/
def gridPoint? (mantissa : Nat) (exponent point : Int) (count : Nat) : Option Nat :=
  let (low, high, ends) := readBack mantissa exponent
  let (scale, unit) := shiftRatio 1 1 (exponent - 2)
  let (up, down) := tenfold scale unit ((count : Int) - point)
  let within (c : Nat) : Bool :=
    if ends then decide (low * up ≤ c * down ∧ c * down ≤ high * up)
    else decide (low * up < c * down ∧ c * down < high * up)
  let floor := 4 * mantissa * up / down
  [roundDiv (4 * mantissa * up) down, floor, floor + 1].find? within

/-- The fewest digits that read back as the float `mantissa * 2 ^ exponent`; seventeen always do. -/
def shortestDigits (mantissa : Nat) (exponent : Int) : Digits :=
  let (n, d) := shiftRatio mantissa 1 exponent
  let point := magnitude n d
  let found := (List.range 16).findSome? fun i =>
    (gridPoint? mantissa exponent point (i + 1)).map (Digits.carried · (i + 1) point)
  found.getD (roundedDigits n d 17)

/-- The digits without the zeros at their end. -/
def Digits.stripped (x : Digits) : Digits :=
  go x.count x
where
  /-- Drop at most `fuel` zeros. -/
  go : Nat → Digits → Digits
    | 0, x => x
    | fuel + 1, x =>
      if x.digits % 10 = 0 ∧ 1 < x.count then go fuel ⟨x.digits / 10, x.count - 1, x.point⟩ else x

/-- A run of zeros. -/
def zeros (n : Nat) : String := String.ofList (List.replicate n '0')

/-- A natural padded with zeros on the left to the given width. -/
def padded (n width : Nat) : String :=
  let s := toString n
  zeros (width - s.length) ++ s

/-- Which decimal exponents are written without an exponent part, and whether a whole number
keeps a fraction. -/
structure Style where
  /-- The least exponent written positionally. -/
  least : Int
  /-- The first exponent that is no longer written positionally. -/
  limit : Int
  /-- A whole number ends in `.0`. -/
  fraction : Bool

/-- The exponent part: a sign and at least two digits. -/
def exponentText (e : Int) : String :=
  "e" ++ (if e < 0 then "-" else "+") ++ padded e.natAbs 2

/-- One digit, the others behind a point, and the exponent part. -/
def Digits.scientific (x : Digits) : String :=
  let s := padded x.digits x.count
  let rest := (s.drop 1).toString
  (s.take 1).toString ++ (if rest.isEmpty then "" else "." ++ rest) ++ exponentText (x.point - 1)

/-- All digits in place, filled up with zeros on the side of the point. -/
def Digits.positional (x : Digits) (fraction : Bool) : String :=
  let s := padded x.digits x.count
  if x.point ≤ 0 then "0." ++ zeros x.point.natAbs ++ s
  else if (x.count : Int) ≤ x.point then
    s ++ zeros (x.point.toNat - x.count) ++ (if fraction then ".0" else "")
  else (s.take x.point.toNat).toString ++ "." ++ (s.drop x.point.toNat).toString

/-- The text of a positive decimal in a style. -/
def Digits.render (x : Digits) (style : Style) : String :=
  let e := x.point - 1
  if style.least ≤ e ∧ e < style.limit then x.positional style.fraction else x.scientific

/-- The minus sign of a negative number. -/
def signText (negative : Bool) : String := if negative then "-" else ""

/-- A text that needs the finite value, with the common texts of the other floats. -/
def withParts (x : Float) (text : Nat → Int → String) : String :=
  match parts x with
  | .notANumber => "nan"
  | .infinite negative => signText negative ++ "inf"
  | .finite negative mantissa exponent => signText negative ++ text mantissa exponent

/-- The default text is positional from `1e-4` up to below `1e16`, and keeps a fraction. -/
def defaultStyle : Style := ⟨-4, 16, true⟩

/-- The default text of a float: the shortest digits that read back. -/
def plain (x : Float) : String :=
  withParts x fun mantissa exponent =>
    if mantissa = 0 then "0.0" else (shortestDigits mantissa exponent).render defaultStyle

/-- At most `precision` significant digits, without zeros at the end. -/
def general (precision : Nat) (x : Float) : String :=
  withParts x fun mantissa exponent =>
    if mantissa = 0 then "0"
    else
      let (n, d) := shiftRatio mantissa 1 exponent
      (roundedDigits n d precision).stripped.render ⟨-4, precision, false⟩

/-- A fixed number of places after the point. -/
def fixed (places : Nat) (x : Float) : String :=
  withParts x fun mantissa exponent =>
    let (n, d) := shiftRatio mantissa 1 exponent
    let scale := Nat.pow 10 places
    let units := roundDiv (n * scale) d
    toString (units / scale) ++ "." ++ padded (units % scale) places

/-- One digit before the point and a fixed number after it. -/
def exponential (places : Nat) (x : Float) : String :=
  withParts x fun mantissa exponent =>
    if mantissa = 0 then "0." ++ zeros places ++ exponentText 0
    else
      let (n, d) := shiftRatio mantissa 1 exponent
      (roundedDigits n d (places + 1)).scientific

end Optimization.Decimal
