import Optimization.Decimal.Format
import Optimization.Decimal.Numeral

/-!
# Symbols and checked arithmetic of MathProg

A symbol is a number or a text. Arithmetic is that of floats, except that a result that is too
large, or undefined, is a defect of the model.
-/

namespace Optimization.MathProg
open Decimal

/-- Why a model cannot be read. -/
structure Defect where
  text : String
  deriving Repr

/-- A result, or the defect that prevents it. -/
abbrev Checked (α : Type) := Except Defect α

/-- Refuse a model. -/
def defect {α : Type} (text : String) : Checked α := throw ⟨text⟩

/-! ### Numerals -/

/-- The greatest finite float; it stands for infinity. -/
def greatest : Float := Float.ofBits 0x7FEFFFFFFFFFFFFF

/-- The least normal float. -/
def leastNormal : Float := Float.ofBits 0x0010000000000000

/-- A float that a numeral may stand for: a tiny one counts as zero, an infinite one as none. -/
def settled (x : Float) : Option Float :=
  if x.isFinite then some (if x.abs < leastNormal then 0.0 else x) else none

/-- What a text is, taken as a numeral. -/
inductive Numeral
  | number (x : Float)
  | tooLarge
  | none

/-- Read a text as a numeral, with an optional sign. -/
def readNumeral (s : String) : Numeral :=
  let (negative, digits) := splitSign s.toList
  match decimalOf? negative digits with
  | some x =>
    match settled x with
    | some y => .number y
    | none => .tooLarge
  | none => .none

/-! ### Symbols -/

/-- A number or a text. -/
inductive Symbol
  | number (x : Float)
  | text (s : String)

namespace Symbol

/-- Numbers are equal by value, texts by their characters. -/
instance : BEq Symbol where
  beq
    | number x, number y => x == y
    | text s, text t => s == t
    | _, _ => false

instance : Inhabited Symbol := ⟨number 0.0⟩

/-- Numbers come before texts, and both in their own order. -/
def less : Symbol → Symbol → Bool
  | number x, number y => x < y
  | number _, text _ => true
  | text _, number _ => false
  | text s, text t => decide (s < t)

/-- A symbol as a number. -/
def toNumber : Symbol → Checked Float
  | number x => pure x
  | text s =>
    match readNumeral s with
    | .number x => pure x
    | _ => defect s!"cannot convert {s} to a number"

/-- A symbol as a text without quotes. -/
def plain : Symbol → String
  | number x => general 15 x
  | text s => s

/-- An ASCII letter or digit, or one of the marks that need no quotes. -/
def isPlainChar (c : Char) : Bool := c.isAlphanum || "+-._".toList.contains c

/-- A text starts with an ASCII letter or an underscore and goes on without special characters. -/
def isPlainWord (s : String) : Bool :=
  match s.toList with
  | [] => false
  | c :: rest => (c.isAlpha || c == '_') && rest.all isPlainChar

/-- A text in quotes, with the quotes in it doubled. -/
def inQuotes (s : String) : String :=
  "'" ++ String.ofList (s.toList.flatMap fun c => if c = '\'' then [c, c] else [c]) ++ "'"

/-- A symbol as it stands in a name: special texts are quoted. -/
def inName : Symbol → String
  | number x => general 15 x
  | text s => if isPlainWord s then s else inQuotes s

end Symbol

/-- A list of symbols. -/
abbrev Tuple := List Symbol

/-- A tuple behind a name. -/
def tupleText (t : Tuple) : String :=
  if t.isEmpty then "" else "[" ++ ",".intercalate (t.map Symbol.inName) ++ "]"

/-! ### Checked arithmetic -/

/-- The greatest size of a result. -/
def limit : Float := 0.999 * greatest

/-- The defect of a result that is too large. -/
def overflow {α : Type} : Checked α := defect "floating-point overflow"

/-- The sum. -/
def add (x y : Float) : Checked Float :=
  if x > 0.0 && y > 0.0 && x > limit - y then overflow
  else if x < 0.0 && y < 0.0 && x < -limit - y then overflow
  else pure (x + y)

/-- The difference. -/
def sub (x y : Float) : Checked Float :=
  if x > 0.0 && y < 0.0 && x > limit + y then overflow
  else if x < 0.0 && y > 0.0 && x < -limit + y then overflow
  else pure (x - y)

/-- The positive difference. -/
def less (x y : Float) : Checked Float :=
  if x < y then pure 0.0
  else if x > 0.0 && y < 0.0 && x > limit + y then overflow
  else pure (x - y)

/-- The product. -/
def mul (x y : Float) : Checked Float :=
  if y.abs > 1.0 && x.abs > limit / y.abs then overflow else pure (x * y)

/-- The quotient. -/
def div (x y : Float) : Checked Float :=
  if y.abs < leastNormal then defect "floating-point zero divide"
  else if y.abs < 1.0 && x.abs > limit * y.abs then overflow
  else pure (x / y)

/-- The quotient without its fraction. -/
def idiv (x y : Float) : Checked Float := do
  let q ← div x y
  pure (if q > 0.0 then q.floor else if q < 0.0 then q.ceil else 0.0)

/-- The remainder of two positive floats, exactly. -/
def positiveRemainder (x y : Float) : Float :=
  match exactValue? x, exactValue? y with
  | some a, some b => nearest (a - (a / b).floor * b)
  | _, _ => notANumber

/-- The remainder, which has the sign of the divisor. -/
def mod (x y : Float) : Float :=
  if x == 0.0 then 0.0
  else if y == 0.0 then x
  else
    let r := positiveRemainder x.abs y.abs
    if r == 0.0 then r
    else
      let r := if x < 0.0 then -r else r
      if (x > 0.0 && y < 0.0) || (x < 0.0 && y > 0.0) then r + y else r

/-- The logarithm of the greatest size of a power. -/
def powerLimit : Float := 0.999 * greatest.log

/-- The power; one that is tiny counts as zero. -/
def power (x y : Float) : Checked Float :=
  let l := x.abs.log
  let wide := x.abs > 1.0
  let narrow := x.abs < 1.0
  if (x == 0.0 && y <= 0.0) || (x < 0.0 && !(y == y.floor)) then
    defect "result of a power undefined"
  else if x == 0.0 then pure (x.pow y)
  else if (wide && y > 1.0 && l > powerLimit / y) || (narrow && y < -1.0 && l < powerLimit / y) then
    overflow
  else if (wide && y < -1.0 && -l < powerLimit / y)
      || (narrow && y > 1.0 && -l > powerLimit / y) then
    pure 0.0
  else pure (x.pow y)

end Optimization.MathProg
