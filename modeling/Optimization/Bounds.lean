import Optimization.Value.Scalar

/-!
# Bound types

The shape of an interval: free, bounded from one side, bounded from both sides, or a single value.
Engines store the shape beside the bounds and ignore a bound that the shape does not use.

* `classify` : the shape of two bounds;
* `carried` : the bounds that a shape carries, infinities on the sides it does not use;
* `normalizeRow` : how a constant in a row's expression is folded into the row's bounds.
-/

namespace Optimization
open Decimal (infinity negativeInfinity)

/-- The shape of an interval. -/
inductive BoundType
  | free
  | lower
  | upper
  | range
  | fixed
  deriving DecidableEq, Repr

namespace BoundType

/-- All shapes in the order of their codes. -/
def all : List BoundType := [free, lower, upper, range, fixed]

/-- The code of a shape. -/
def code : BoundType → Int
  | free => 1
  | lower => 2
  | upper => 3
  | range => 4
  | fixed => 5

/-- The word for a shape. -/
def word : BoundType → String
  | free => "FREE"
  | lower => "LOWER"
  | upper => "UPPER"
  | range => "RANGE"
  | fixed => "FIXED"

/-- The shape uses its lower bound. -/
def hasLower : BoundType → Bool
  | lower | range | fixed => true
  | _ => false

/-- The shape uses its upper bound. -/
def hasUpper : BoundType → Bool
  | upper | range | fixed => true
  | _ => false

/-- The shape of a word. -/
def ofWord? (s : String) : Option BoundType := all.find? (·.word == s)

/-- The shape whose code a scalar is. -/
def ofCode (x : Scalar) : Except Fault BoundType :=
  match all.find? fun t => x.same (.integer t.code) with
  | some t => pure t
  | none => throw (.notAMember x.quoted "BoundType")

/-- The shape of two bounds; not-a-number and an infinity on the wrong side are refused. -/
def classify (lower upper : Float) : Except Fault BoundType :=
  if lower.isNaN || upper.isNaN then throw (.nanBounds lower upper)
  else if lower == infinity then throw .infiniteLower
  else if upper == negativeInfinity then throw .infiniteUpper
  else
    let lowerFree := lower == negativeInfinity
    let upperFree := upper == infinity
    pure (
      if lowerFree && upperFree then .free
      else if upperFree then .lower
      else if lowerFree then .upper
      else if lower == upper then .fixed
      else .range)

/-- The bounds that a shape carries. -/
def carried (t : BoundType) (lower upper : Float) : Float × Float :=
  (if t.hasLower then lower else negativeInfinity, if t.hasUpper then upper else infinity)

/-- The bounds that a shape carries; a bound that is not used is not read. -/
def readCarried (t : BoundType) (lower upper : Scalar) : Except Fault (Float × Float) := do
  let lower ← if t.hasLower then lower.toFloat else pure negativeInfinity
  let upper ← if t.hasUpper then upper.toFloat else pure infinity
  pure (lower, upper)

@[simp] theorem hasLower_lower : hasLower .lower = true := rfl
@[simp] theorem hasUpper_upper : hasUpper .upper = true := rfl
@[simp] theorem hasLower_upper : hasLower .upper = false := rfl
@[simp] theorem hasUpper_lower : hasUpper .lower = false := rfl

theorem code_injective {s t : BoundType} (h : s.code = t.code) : s = t := by
  cases s <;> cases t <;> simp_all [code]

end BoundType

/-- The bounds of a row after its expression's constant is folded in: a negative constant is taken
from the upper bound, a positive one is added to the lower bound, and equal bounds move together by
the constant's magnitude. -/
def normalizeRow (lower upper constant : Number) : Except Fault (Number × Number) := do
  if constant.same (.integer 0) then pure (lower, upper)
  else if lower.same upper then
    let shift := if constant.less (.integer 0) then constant.neg else constant
    pure (← lower.add shift, ← upper.add shift)
  else if constant.less (.integer 0) then pure (lower, ← upper.sub constant)
  else pure (← lower.add constant, upper)

/-- The bounds of a row of floats after a constant is folded in. -/
def foldConstant (lower upper constant : Float) : Float × Float :=
  if constant == 0.0 then (lower, upper)
  else if lower == upper then
    let shift := if constant < 0.0 then -constant else constant
    (lower + shift, upper + shift)
  else if constant < 0.0 then (lower, upper - constant)
  else (lower + constant, upper)

/-- A constant that is zero changes no bounds. -/
theorem foldConstant_of_zero {lower upper constant : Float} (h : (constant == 0.0) = true) :
    foldConstant lower upper constant = (lower, upper) := by
  rw [foldConstant, if_pos h]

end Optimization
