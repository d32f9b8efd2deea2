import Optimization.MathProg.Statement.Basic
import Optimization.MathProg.Value

/-!
# Printed text

The format of a print statement is copied, except for backslashes and conversions. A conversion
says how the next argument is written: flags, a least width, a precision and a letter.

* `Conversion.integral`, `Conversion.fractional` : numbers, an exact half to the even neighbour;
* `pieces` : a format taken apart, up to the first conversion without an argument.
-/

namespace Optimization.MathProg
open Decimal

/-- How an argument is written. -/
structure Conversion where
  flags : List Char := []
  width : Nat := 0
  precision : Option Nat := none
  letter : Char

namespace Conversion

/-- The flag is given. -/
def has (c : Conversion) (flag : Char) : Bool := c.flags.contains flag

/-- A sign and a text filled up to the width. -/
def padded (c : Conversion) (sign body : String) (zeros : Bool) : String :=
  let missing := c.width - (sign ++ body).utf8ByteSize
  let blanks := String.ofList (List.replicate missing ' ')
  if c.has '-' then sign ++ body ++ blanks
  else if zeros && c.has '0' then sign ++ Decimal.zeros missing ++ body
  else blanks ++ sign ++ body

/-- The sign of a number. -/
def sign (c : Conversion) (negative : Bool) : String :=
  if negative then "-" else if c.has '+' then "+" else if c.has ' ' then " " else ""

/-- A whole number; the precision is the least number of digits. -/
def integral (c : Conversion) (n : Int) : String :=
  let digits := if n = 0 ∧ c.precision = some 0 then ""
    else Decimal.padded n.natAbs (c.precision.getD 1)
  c.padded (c.sign (n < 0)) digits c.precision.isNone

/-- A text of digits with a point, before the exponent if there is one. -/
def pointed (s : String) : String :=
  if s.toList.contains '.' then s
  else
    let (digits, exponent) := s.toList.span (· != 'e')
    String.ofList digits ++ "." ++ String.ofList exponent

/-- Significant digits of a ratio, which can be zero. -/
def digits (n d count : Nat) : Digits := if n = 0 then ⟨0, count, 1⟩ else roundedDigits n d count

/-- The digits of a number without sign. -/
def magnitude (c : Conversion) (mantissa : Nat) (exponent : Int) : String :=
  let (n, d) := shiftRatio mantissa 1 exponent
  let places := c.precision.getD 6
  match c.letter.toLower with
  | 'f' =>
    let units := roundDiv (n * Nat.pow 10 places) d
    let whole := toString (units / Nat.pow 10 places)
    if places = 0 then whole else whole ++ "." ++ Decimal.padded (units % Nat.pow 10 places) places
  | 'e' => (digits n d (places + 1)).scientific
  | _ =>
    let count := max places 1
    let x := digits n d count
    (if c.has '#' then x else x.stripped).render ⟨-4, count, false⟩

/-- A number by the letters `e`, `f` and `g`, of which a great one asks for a great exponent. -/
def fractional (c : Conversion) (x : Float) : String :=
  match parts x with
  | .finite negative mantissa exponent =>
    let body := c.magnitude mantissa exponent
    let body := if c.has '#' then pointed body else body
    let body := if c.letter.isUpper then body.toUpper else body
    c.padded (c.sign negative) body true
  | _ => plain x

/-- The letter is known. -/
def isKnown (c : Conversion) : Bool := "dieEfFgGs".toList.contains c.letter

/-- The greatest size of a whole number that is written. -/
def integerLimit : Float := 2147483647.0

/-- A number, which is one or zero for a truth value. -/
def numberOf : Value → Checked Float
  | .truth b => pure (if b then 1.0 else 0.0)
  | v => v.toNumber

/-- A text, which is a letter for a truth value. -/
def textOf : Value → Checked String
  | .truth b => pure (if b then "T" else "F")
  | v => return (← v.toSymbol).plain

/-- A value as it is written. -/
def write (c : Conversion) (v : Value) : Checked String := do
  if c.letter = 's' then
    let s ← textOf v
    pure (c.padded "" (match c.precision with
      | some n => (s.take n).toString
      | none => s) false)
  else
    let x ← numberOf v
    if c.letter = 'd' || c.letter = 'i' then
      if x.abs <= integerLimit then pure (c.integral (x + 0.5).floor.toInt64.toInt)
      else defect s!"cannot convert {general 15 x} to integer"
    else pure (c.fractional x)

/-- A natural at the start of a text, and the rest of the text. -/
def natural (cs : List Char) : Nat × List Char :=
  let (digits, rest) := cs.span Char.isDigit
  (digits.foldl (fun n c => 10 * n + (c.toNat - '0'.toNat)) 0, rest)

/-- A conversion behind its percent sign, and the rest of the format. -/
def read? (cs : List Char) : Option (Conversion × List Char) :=
  let (flags, cs) := cs.span "-+ #0".toList.contains
  let (width, cs) := natural cs
  let (precision, cs) := match cs with
    | '.' :: cs =>
      let (precision, cs) := natural cs
      (some precision, cs)
    | _ => (none, cs)
  match cs with
  | letter :: cs => some ({ flags, width, precision, letter }, cs)
  | [] => none

end Conversion

/-- A part of a format. -/
inductive Piece
  | text (s : String)
  | value (conversion : Conversion) (argument : Expr)
  | refused (reason : String)

/-- The character that a letter behind a backslash stands for. -/
def escaped (c : Char) : Char :=
  match c with
  | 't' => '\t'
  | 'n' => '\n'
  | _ => c

/-- A format taken apart; the number bounds how many pieces there are. -/
def pieces : Nat → List Char → List Expr → List Piece
  | 0, _, _ => []
  | _, [], _ => []
  | n + 1, '%' :: '%' :: cs, es => .text "%" :: pieces n cs es
  | _, '%' :: _, [] => []
  | n + 1, '%' :: cs, e :: es =>
    match Conversion.read? cs with
    | some (c, cs) =>
      if c.isKnown then .value c e :: pieces n cs es
      else [.refused "format specifier missing or invalid"]
    | none => [.refused "format specifier missing or invalid"]
  | _, ['\\'], _ => [.refused "invalid use of escape character \\ in format control string"]
  | n + 1, '\\' :: c :: cs, es => .text (String.singleton (escaped c)) :: pieces n cs es
  | n + 1, c :: cs, es => .text (String.singleton c) :: pieces n cs es

end Optimization.MathProg
