import Optimization.Decimal.Binary
import Optimization.Problem.Basic

/-!
# Linear programs in exact arithmetic

A linear program has variables within limits, rows that are sums of multiples of the variables and
lie within limits themselves, and weights whose sum over the variables is to be least. All numbers
are rationals: the floats of a problem are taken at their exact values.

A point may miss a limit by a small tolerance that grows with the limit, since the floats of a
problem are themselves rounded.
-/

namespace Optimization

/-- Where a value may lie. -/
structure Limits where
  lower : Option Rat := none
  upper : Option Rat := none
  deriving DecidableEq, Repr

instance : Inhabited Limits := ⟨{}⟩

namespace Limits

/-- How far a limit may be missed. -/
def slack (x : Rat) : Rat := (1 : Rat) / 10000000 * (1 + (if x < 0 then -x else x))

/-- The lower limit, if a value lies too far below it. -/
def below? (l : Limits) (x : Rat) : Option Rat := l.lower.filter fun b => decide (x < b - slack b)

/-- The upper limit, if a value lies too far above it. -/
def above? (l : Limits) (x : Rat) : Option Rat := l.upper.filter fun b => decide (b + slack b < x)

/-- A value may become greater. -/
def canIncrease (l : Limits) (x : Rat) : Bool := l.upper.all fun b => decide (x < b)

/-- A value may become less. -/
def canDecrease (l : Limits) (x : Rat) : Bool := l.lower.all fun b => decide (b < x)

/-- The value within limits that lies nearest to a given one. -/
def clamp (l : Limits) (x : Rat) : Rat :=
  let x := match l.lower with
    | some b => if x < b then b else x
    | none => x
  match l.upper with
  | some b => if b < x then b else x
  | none => x

/-- The value to start from: of two limits the one nearer to zero, the only one, or zero. -/
def start (l : Limits) : Rat :=
  match l.lower, l.upper with
  | some a, some b => if (if a < 0 then -a else a) ≤ (if b < 0 then -b else b) then a else b
  | some a, none => a
  | none, some b => b
  | none, none => 0

/-- Limits widened so far that they hold a value. -/
def widen (l : Limits) (x : Rat) : Limits :=
  ⟨l.lower.map fun b => if x < b then x else b, l.upper.map fun b => if b < x then x else b⟩

/-- The exact value of a float, zero for one that has none. -/
def exact (x : Float) : Rat := (Decimal.exactValue? x).getD 0

/-- The limits that a span sets. -/
def ofSpan (s : Span) : Limits :=
  ⟨if s.type.hasLower then some (exact s.lower) else none,
    if s.type.hasUpper then some (exact s.upper) else none⟩

end Limits

/-- A linear program. -/
structure LinearProgram where
  columns : List Limits
  rows : List (Limits × List (Nat × Rat))
  weights : List Rat

namespace LinearProgram

/-- The program of a problem; a greatest value is sought as the least value of the negated
weights. -/
def ofProblem (p : Problem) : LinearProgram where
  columns := p.columns.map fun c => .ofSpan c.span
  rows := p.rows.map fun r =>
    (.ofSpan r.span, r.entries.map fun (j, x) => (j - 1, Limits.exact x))
  weights := p.columns.map fun c =>
    if p.maximize then -Limits.exact c.weight else Limits.exact c.weight

end LinearProgram

end Optimization
