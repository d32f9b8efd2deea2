import Optimization.MathProg.Expr.Basic

/-!
# Values of MathProg

A value is a symbol, a truth value, a tuple, a set of tuples or a linear form over numbered
elements. Numbers are symbols, so that a symbol takes part in arithmetic if it reads as a number.

* A linear form has no zero coefficients, and one coefficient for an element.
* Set operations keep the order in which members were first met.
-/

namespace Optimization.MathProg

/-- A constant and coefficients of elements. -/
structure Linear where
  terms : List (Nat × Float) := []
  constant : Float := 0.0

namespace Linear

/-- Add to the coefficient of an element. -/
def accumulate (v : Nat) (x : Float) : List (Nat × Float) → Checked (List (Nat × Float))
  | [] => return [(v, ← MathProg.add 0.0 x)]
  | (w, y) :: terms => do
    if v = w then return (w, ← MathProg.add y x) :: terms
    else return (w, y) :: (← accumulate v x terms)

/-- Add a multiple of terms to a sum of terms. -/
def accumulateAll (a : Float) (terms sum : List (Nat × Float)) :
    Checked (List (Nat × Float)) :=
  terms.foldlM (fun sum (v, x) => do accumulate v (← mul a x) sum) sum

/-- The sum of multiples of two forms. -/
def combine (a : Float) (f : Linear) (b : Float) (g : Linear) : Checked Linear := do
  let constant ← MathProg.add (← MathProg.add 0.0 (← mul a f.constant)) (← mul b g.constant)
  let terms ← accumulateAll b g.terms (← accumulateAll a f.terms [])
  pure { terms := terms.filter fun (_, x) => x != 0.0, constant }

/-- A multiple of a form. -/
def scale (a : Float) (f : Linear) : Checked Linear := combine a f 0.0 {}

end Linear

/-- A value. -/
inductive Value
  | symbol (s : Symbol)
  | truth (b : Bool)
  | tuple (t : Tuple)
  | set (ts : List Tuple)
  | linear (f : Linear)

namespace Value

/-- A number as a value. -/
def number (x : Float) : Value := symbol (.number x)

/-- The symbol of a value. -/
def toSymbol : Value → Checked Symbol
  | symbol s => pure s
  | _ => defect "symbol expected"

/-- The number of a value. -/
def toNumber : Value → Checked Float
  | symbol s => s.toNumber
  | _ => defect "number expected"

/-- The truth of a value: a number is true unless it is zero. -/
def toTruth : Value → Checked Bool
  | truth b => pure b
  | v => return (← v.toNumber) != 0.0

/-- The tuple of a value. -/
def toTuple : Value → Checked Tuple
  | symbol s => pure [s]
  | tuple t => pure t
  | _ => defect "tuple expected"

/-- The members of a value. -/
def toSet : Value → Checked (List Tuple)
  | set ts => pure ts
  | _ => defect "set expected"

/-- The linear form of a value; a zero constant has no sign. -/
def toLinear : Value → Checked Linear
  | linear f => pure f
  | v => do
    let x ← v.toNumber
    pure { constant := if x == 0.0 then 0.0 else x }

/-- An operation on two numbers. -/
def onNumbers : NumberOperation → Float → Float → Checked Float
  | .add, x, y => MathProg.add x y
  | .sub, x, y => MathProg.sub x y
  | .less, x, y => MathProg.less x y
  | .mul, x, y => MathProg.mul x y
  | .div, x, y => MathProg.div x y
  | .idiv, x, y => MathProg.idiv x y
  | .mod, x, y => pure (MathProg.mod x y)
  | .power, x, y => MathProg.power x y

/-- An operation on two values of which one is a linear form. -/
def onLinear (operation : NumberOperation) (v w : Value) : Checked Linear := do
  match operation, v with
  | .sub, _ => Linear.combine 1.0 (← v.toLinear) (-1.0) (← w.toLinear)
  | .mul, linear f => f.scale (← w.toNumber)
  | .mul, _ => (← w.toLinear).scale (← v.toNumber)
  | .div, _ => (← v.toLinear).scale (← MathProg.div 1.0 (← w.toNumber))
  | _, _ => Linear.combine 1.0 (← v.toLinear) 1.0 (← w.toLinear)

/-- An operation on two numbers or linear forms. -/
def combine (operation : NumberOperation) (v w : Value) : Checked Value := do
  match v, w with
  | linear _, _ | _, linear _ => return linear (← onLinear operation v w)
  | _, _ => return number (← onNumbers operation (← v.toNumber) (← w.toNumber))

/-- The opposite of a number or a linear form. -/
def negate : Value → Checked Value
  | linear f => return linear (← f.scale (-1.0))
  | v => return number (-(← v.toNumber))

/-- The greatest length of a text that is put together. -/
def textLimit : Nat := 100

/-- Two texts put behind each other. -/
def join (v w : Value) : Checked Value := do
  let s := (← v.toSymbol).plain ++ (← w.toSymbol).plain
  if s.utf8ByteSize ≤ textLimit then pure (symbol (.text s)) else defect "symbol too long"

end Value

/-- The relation holds between two symbols. -/
def Relation.holds (r : Relation) (s t : Symbol) : Bool :=
  match r with
  | lt => s.less t
  | le => s.less t || s == t
  | eq => s == t
  | ge => t.less s || s == t
  | gt => t.less s
  | ne => !(s == t)

/-! ### Functions -/

namespace NumberFunction

/-- A function of an angle that must not be too large. -/
def ofAngle (f : Float → Float) (x : Float) : Checked Float :=
  if -1e6 <= x && x <= 1e6 then pure (f x) else defect "argument too large"

/-- A whole number of places after the point is kept by a function to whole numbers. -/
def toPlaces (whole : Float → Float) (x places : Float) : Checked Float :=
  if places != places.floor then defect "number of digits not integer"
  else if places <= 17.0 then
    let unit := Float.pow 10.0 places
    if x.abs < limit / unit then
      let y := whole (x * unit)
      pure (if y != 0.0 then y / unit else y)
    else pure x
  else pure x

/-- The nearest whole number, a half to the greater one. -/
def nearestWhole (x : Float) : Float := (x + 0.5).floor

/-- The whole part. -/
def wholePart (x : Float) : Float := if x < 0.0 then x.ceil else x.floor

/-- The value of a function for its arguments. -/
def value : NumberFunction → List Float → Checked Float
  | abs, [x] => pure x.abs
  | ceil, [x] => pure x.ceil
  | floor, [x] => pure x.floor
  | exp, [x] => if x > powerLimit then overflow else pure x.exp
  | log, [x] => if x <= 0.0 then defect "non-positive argument" else pure x.log
  | log10, [x] => if x <= 0.0 then defect "non-positive argument" else pure x.log10
  | sqrt, [x] => if x < 0.0 then defect "negative argument" else pure x.sqrt
  | sin, [x] => ofAngle Float.sin x
  | cos, [x] => ofAngle Float.cos x
  | tan, [x] => ofAngle Float.tan x
  | atan, [x] => pure x.atan
  | atan, [y, x] => pure (Float.atan2 y x)
  | round, [x] => pure (nearestWhole x)
  | round, [x, n] => toPlaces nearestWhole x n
  | trunc, [x] => pure (wholePart x)
  | trunc, [x, n] => toPlaces wholePart x n
  | least, xs => pure (xs.foldl (fun a x => if x < a then x else a) MathProg.greatest)
  | greatest, xs => pure (xs.foldl (fun a x => if x > a then x else a) (-MathProg.greatest))
  | _, _ => defect "wrong number of arguments"

end NumberFunction

/-! ### Sets -/

namespace SetOperation

/-- The members that are in neither of the two parts, in both, or in one, as the operation says. -/
def value : SetOperation → List Tuple → List Tuple → List Tuple
  | union, s, t => s ++ t.filter fun x => !s.contains x
  | diff, s, t => s.filter fun x => !t.contains x
  | symdiff, s, t => (s.filter fun x => !t.contains x) ++ t.filter fun x => !s.contains x
  | inter, s, t => s.filter t.contains
  | cross, s, t => s.flatMap fun x => t.map (x ++ ·)

end SetOperation

/-- The tuples of a list, which must be different. -/
def distinct (ts : List Tuple) : Checked (List Tuple) :=
  ts.foldlM (fun s t => if s.contains t then defect "duplicate tuple detected" else pure (s ++ [t]))
    []

/-- The tuples of a list, each taken once. -/
def onceEach (ts : List Tuple) : List Tuple :=
  ts.foldl (fun s t => if s.contains t then s else s ++ [t]) []

/-! ### Progressions -/

/-- An arithmetic progression. -/
structure Progression where
  first : Float
  last : Float
  step : Float

namespace Progression

/-- The greatest size of a progression. -/
def sizeLimit : Float := 2147483646.0

/-- The distance from the first to the last number, the greatest float if it is too large. -/
def distance (p : Progression) : Float :=
  if p.last > 0.0 && p.first < 0.0 && p.last > limit + p.first then greatest
  else if p.last < 0.0 && p.first > 0.0 && p.last < -limit + p.first then -greatest
  else p.last - p.first

/-- The number of members. -/
def size (p : Progression) : Checked Nat :=
  if p.step == 0.0 then defect "zero stride not allowed"
  else
    let d := p.distance
    let count :=
      if p.step.abs < 1.0 && d.abs > limit * p.step.abs then
        if (d > 0.0 && p.step > 0.0) || (d < 0.0 && p.step < 0.0) then greatest else 0.0
      else
        let n := (d / p.step).floor + 1.0
        if n < 0.0 then 0.0 else n
    if count > sizeLimit then defect "set too large" else pure (count + 0.5).toUInt64.toNat

/-- The member with a number that counts from zero. -/
def member (p : Progression) (k : Nat) : Float := p.first + k.toFloat * p.step

/-- All members. -/
def members (p : Progression) : Checked (List Tuple) :=
  return (List.range (← p.size)).map fun k => [.number (p.member k)]

/-- A tuple is a member. -/
def contains (p : Progression) (t : Tuple) : Checked Bool := do
  let _ ← p.size
  match t with
  | [.number x] =>
    let inside :=
      if p.step > 0.0 then p.first <= x && x <= p.last else p.last <= x && x <= p.first
    let k := ((x - p.first) / p.step + 0.5).toUInt64.toNat
    pure (inside && p.member k == x)
  | _ => pure false

end Progression

end Optimization.MathProg
