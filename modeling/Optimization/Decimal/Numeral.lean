import Optimization.Decimal.Binary
import Optimization.Text.Blank
import Optimization.Text.DecimalDigit

/-!
# Reading numerals

Numerals may be surrounded by blanks, use the decimal digits of any script, and group digits by
single underscores.

* `readInteger?` : an optional sign and digits, not more than a limit;
* `readFloat?` : a decimal number with an optional fraction and exponent, or a word for an
  infinity or not-a-number, rounded to the nearest float.
-/

namespace Optimization.Decimal
open Optimization.Text

/-- A digit of any script becomes the ASCII digit of the same value. -/
def asciiDigit (c : Char) : Char :=
  match digitValue? c with
  | some d => Char.ofNat (48 + d)
  | none => c

/-- The characters without their underscores, each of which must stand between two digits. -/
def ungroup (before : Char) : List Char → Option (List Char)
  | [] => if before = '_' then none else some []
  | c :: rest =>
    if c = '_' then
      if before.isDigit then ungroup c rest else none
    else if before = '_' && !c.isDigit then none
    else (ungroup c rest).map (c :: ·)

/-- The characters of a numeral that carry its value, in ASCII. -/
def numeralChars (s : String) : Option (List Char) :=
  ungroup ' ' ((strip s.toList).map asciiDigit)

/-- The sign in front, and the rest. -/
def splitSign : List Char → Bool × List Char
  | '-' :: rest => (true, rest)
  | '+' :: rest => (false, rest)
  | cs => (false, cs)

/-- ASCII digits read as a natural number. -/
def digitsValue (cs : List Char) : Nat :=
  cs.foldl (fun n c => 10 * n + (c.toNat - 48)) 0

/-- A nonempty run of ASCII digits and nothing else. -/
def readDigits? (cs : List Char) : Option Nat :=
  if !cs.isEmpty && cs.all Char.isDigit then some (digitsValue cs) else none

/-- The integer that ASCII characters write. -/
def integerOf? (cs : List Char) : Option Int :=
  let (negative, digits) := splitSign cs
  (readDigits? digits).map fun n => if negative then -(n : Int) else n

/-- The greatest number of digits of an integer that is read. -/
def digitLimit : Nat := 4300

/-- The number of digits of a numeral. -/
def digitCount (s : String) : Nat := ((numeralChars s).getD []).countP Char.isDigit

/-- The integer that a text writes, however long. -/
def unlimitedInteger? (s : String) : Option Int := (numeralChars s).bind integerOf?

/-- The integer that a text writes. -/
def readInteger? (s : String) : Option Int :=
  (unlimitedInteger? s).filter fun _ => decide (digitCount s ≤ digitLimit)

/-- The float nearest to `± digits * 10 ^ exponent`.

Exponents far outside the range of floats are decided without computing the power. -/
def decimalFloat (negative : Bool) (digits : Nat) (exponent : Int) : Float :=
  let size : Int := (toString digits).length + exponent
  if digits = 0 ∨ size < -400 then nearestRatio negative 0 1
  else if 400 < size then (if negative then negativeInfinity else infinity)
  else if exponent < 0 then nearestRatio negative digits (Nat.pow 10 exponent.natAbs)
  else nearestRatio negative (digits * Nat.pow 10 exponent.natAbs) 1

/-- The exponent part of a numeral, zero if there is none. -/
def exponentOf? : List Char → Option Int
  | [] => some 0
  | c :: rest => if c = 'e' ∨ c = 'E' then integerOf? rest else none

/-- Digits around an optional point, at least one of them, and an exponent. -/
def decimalOf? (negative : Bool) (cs : List Char) : Option Float :=
  let whole := cs.takeWhile Char.isDigit
  let rest := cs.dropWhile Char.isDigit
  let (fraction, rest) :=
    match rest with
    | '.' :: rest => (rest.takeWhile Char.isDigit, rest.dropWhile Char.isDigit)
    | rest => ([], rest)
  if whole.isEmpty && fraction.isEmpty then none
  else (exponentOf? rest).map fun e =>
    decimalFloat negative (digitsValue (whole ++ fraction)) (e - fraction.length)

/-- The float that ASCII characters write. -/
def floatOf? (cs : List Char) : Option Float :=
  let (negative, rest) := splitSign cs
  let word := String.ofList (rest.map Char.toLower)
  if word = "inf" ∨ word = "infinity" then some (if negative then negativeInfinity else infinity)
  else if word = "nan" then some notANumber
  else decimalOf? negative rest

/-- The float that a text writes. -/
def readFloat? (s : String) : Option Float :=
  (numeralChars s).bind floatOf?

end Optimization.Decimal
