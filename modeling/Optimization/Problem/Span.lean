import Optimization.Bounds

/-!
# Bounds as an engine keeps them

An engine keeps a shape and two floats. A side that the shape does not use holds a zero, and a
fixed span holds its one value on both sides; `bounds` gives infinities for unused sides.
-/

namespace Optimization

/-- A shape and the two floats kept for it. -/
structure Span where
  type : BoundType
  lower : Float
  upper : Float

namespace Span

/-- Keep the sides that a shape uses. -/
def keep (t : BoundType) (lower upper : Float) : Span :=
  match t with
  | .free => ⟨t, 0.0, 0.0⟩
  | .lower => ⟨t, lower, 0.0⟩
  | .upper => ⟨t, 0.0, upper⟩
  | .range => ⟨t, lower, upper⟩
  | .fixed => ⟨t, lower, lower⟩

/-- The bounds of a span, infinities on unused sides. -/
def bounds (s : Span) : Float × Float := s.type.carried s.lower s.upper

/-- The span of the new columns of a problem. -/
def zero : Span := keep .fixed 0.0 0.0

/-- The span of the new rows of a problem. -/
def unbounded : Span := keep .free 0.0 0.0

/-- The span from zero to one. -/
def unit : Span := keep .range 0.0 1.0

/-- Both sides are used, the lower is zero and the upper is one. -/
def isUnit (s : Span) : Bool := s.type == .range && s.lower == 0.0 && s.upper == 1.0

/-- Two different sides are used and the lower does not lie below the upper. -/
def isIncorrect (s : Span) : Bool := s.type == .range && s.upper <= s.lower

@[simp] theorem type_keep (t : BoundType) (l u : Float) : (keep t l u).type = t := by
  cases t <;> rfl

/-- A used lower side is kept. -/
theorem lower_keep {t : BoundType} (l u : Float) (h : t.hasLower = true) :
    (keep t l u).lower = l := by
  cases t <;> simp_all [keep, BoundType.hasLower]

/-- A used upper side is kept, except that a fixed span keeps its lower side only. -/
theorem upper_keep {t : BoundType} (l u : Float) (h : t.hasUpper = true) (hf : t ≠ .fixed) :
    (keep t l u).upper = u := by
  cases t <;> simp_all [keep, BoundType.hasUpper]

end Span

end Optimization
