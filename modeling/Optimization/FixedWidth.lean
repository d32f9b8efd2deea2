import Optimization.Value.Scalar

/-!
# Sequences of fixed-width numbers

Engines take flat sequences of one number type. Scalars are read into such a type one by one, and
an integer that does not fit is refused; a sequence of one type is turned into another one by a
cast, which keeps the low bits of an integer and the integer part of a float.
-/

namespace Optimization
open Decimal

/-- The types of the numbers in a sequence. -/
inductive CellType
  | truth
  | signed (bits : Nat)
  | unsigned (bits : Nat)
  | single
  | double
  deriving DecidableEq, Repr

namespace CellType

/-- The type of 32-bit integers. -/
def int32 : CellType := signed 32

/-- The name of a type. -/
def name : CellType → String
  | truth => "bool"
  | signed bits => s!"int{bits}"
  | unsigned bits => s!"uint{bits}"
  | single => "float32"
  | double => "float64"

/-- The type of a name. -/
def ofName? (s : String) : Option CellType :=
  [truth, signed 8, signed 16, signed 32, signed 64, unsigned 8, unsigned 16, unsigned 32,
    unsigned 64, single, double].find? (·.name == s)

/-- The least and the greatest integer of a type, if it is one of integers. -/
def range? : CellType → Option (Int × Int)
  | signed bits => some (-Int.pow 2 (bits - 1), Int.pow 2 (bits - 1) - 1)
  | unsigned bits => some (0, Int.pow 2 bits - 1)
  | _ => none

/-- Whether an integer fits in a type. -/
def fits (t : CellType) (n : Int) : Bool :=
  match t.range? with
  | some (lo, hi) => decide (lo ≤ n ∧ n ≤ hi)
  | none => true

/-- The float rounded to single precision. -/
def toSingle (x : Float) : Float := x.toFloat32.toFloat

/-- Read a scalar as a number of a type; nothing reads as not-a-number among floats. -/
def read (t : CellType) (x : Scalar) : Except Fault Number :=
  match t with
  | truth => pure (.truth x.isTrue)
  | single => do pure (.real (toSingle (← float x)))
  | double => do pure (.real (← float x))
  | t => do
    let n ← x.toInteger
    if t.fits n then pure (.integer n) else throw .tooLarge
where
  /-- A scalar as a float, not-a-number for nothing. -/
  float : Scalar → Except Fault Float
    | .nothing => pure notANumber
    | x => x.toFloat

/-- The low bits of an integer, read as a number of the type. -/
def wrap (t : CellType) (n : Int) : Int :=
  match t with
  | signed bits => Int.bmod n (Nat.pow 2 bits)
  | unsigned bits => n % Int.pow 2 bits
  | _ => n

/-- The integer part of a float, the least integer of the type where there is none. -/
def castFloat (t : CellType) (x : Float) : Int :=
  match Number.toInteger (.real x) with
  | .ok n => if t.fits n then n else (t.range?.map Prod.fst).getD 0
  | .error _ => (t.range?.map Prod.fst).getD 0

/-- Cast a number of any type to a type. -/
def cast (t : CellType) (x : Number) : Number :=
  match t, x with
  | truth, x => .truth x.isTrue
  | double, .real x => .real x
  | double, x => .real (nearestInt (x.whole?.getD 0))
  | single, .real x => .real (toSingle x)
  | single, x => .real (toSingle (nearestInt (x.whole?.getD 0)))
  | t, .real x => .integer (t.castFloat x)
  | t, x => .integer (t.wrap (x.whole?.getD 0))

/-- The integers of 32 bits. -/
theorem fits_int32 (n : Int) :
    int32.fits n = true ↔ -2147483648 ≤ n ∧ n ≤ 2147483647 := by
  have hrange : int32.fits n = decide ((-2147483648 : Int) ≤ n ∧ n ≤ 2147483647) := rfl
  rw [hrange, decide_eq_true_eq]

end CellType

/-- A sequence of numbers of one type. -/
structure Cells where
  type : CellType
  values : List Number

namespace Cells

/-- Read scalars into a sequence. -/
def ofScalars (t : CellType) (xs : List Scalar) : Except Fault Cells := do
  pure ⟨t, ← xs.mapM t.read⟩

/-- Cast a sequence to a type; a sequence of that type stays as it is. -/
def convert (t : CellType) (c : Cells) : Cells :=
  if c.type = t then c else ⟨t, c.values.map t.cast⟩

/-- Every element whose position is a multiple of a positive step. -/
def everyFrom (step : Nat) : Nat → List Number → List Number
  | _, [] => []
  | 0, x :: rest => x :: everyFrom step (step - 1) rest
  | k + 1, _ :: rest => everyFrom step k rest

/-- Every `|step|`-th element, from the front or, with a negative step, from the back. -/
def every (step : Int) (c : Cells) : Except Fault Cells :=
  if step = 0 then throw .arrayValue
  else
    let values := if step < 0 then c.values.reverse else c.values
    pure { c with values := everyFrom step.natAbs 0 values }

end Cells

end Optimization
