import Optimization.LinearProgram.Basic
import Optimization.Proofs.Layout
import Optimization.Proofs.Powers
import Optimization.Proofs.Shapes
import Mathlib.Algebra.BigOperators.Group.Finset.Basic
import Mathlib.Order.Interval.Finset.Nat

/-!
# What models and problems mean

A model asks for values of its variables, a problem for values of its columns. Both say which
rational values are allowed and what they are worth.

* `Model.Satisfies` : values keep to the bounds or to the overrides, to the domains, and to the
  constraints of a model;
* `Problem.Feasible` : values keep to the bounds, the kinds and the rows of a problem;
* `Expression.worth?`, `Problem.worth?` : the values of objectives.

Bounds, overrides and factors count as the floats that they are read as. Constants that are not
finite make no value; factors that are not finite count as zero.
-/

namespace Optimization
open Decimal (place? infinity negativeInfinity exactValue? exactValue?_eq_some_iff)
open Decimal (Extended)

/-- A value lies between two floats. -/
def Within (lower upper : Float) (q : ℚ) : Prop :=
  ∃ a b, place? lower = some a ∧ place? upper = some b ∧ a ≤ .ofRat q ∧ .ofRat q ≤ b

/-- The exact value of the float that a number is read as. -/
def Number.exact (x : Number) : ℚ :=
  match x.toFloat with
  | .ok y => Limits.exact y
  | .error _ => 0

/-- A variable may have a value: the one that it is fixed to, or one between its bounds. -/
def Overrides.Allows (values : Overrides) (s : Store Interval) (v : Variable) (q : ℚ) : Prop :=
  match values.lookup v.name with
  | some x => ∃ y, x.toFloat = .ok y ∧ place? y = some (.ofRat q)
  | none => ∃ lower upper, (s.get v.cell).lower.toFloat = .ok lower ∧
      (s.get v.cell).upper.toFloat = .ok upper ∧ Within lower upper q

namespace Expression

/-- The sum of the terms of a linear expression. -/
def total (e : Expression) (a : Variable → ℚ) : ℚ :=
  (e.factors.map fun (p, x) => x.exact * a p.var).sum

/-- The value of a linear expression. -/
def worth? (e : Expression) (a : Variable → ℚ) : Option ℚ :=
  (exactValue? e.constant).map (· + e.total a)

end Expression

/-- An assignment satisfies a model whose variables are fixed as overrides say. -/
structure Model.Satisfies (m : Model) (cs : Store Constraint) (s : Store Interval)
    (values : Overrides) (a : Variable → ℚ) : Prop where
  bounds : ∀ v ∈ m.decisions, values.Allows s v (a v)
  integral : ∀ v ∈ m.decisions, v.domain = .integer → ∃ n : ℤ, a v = n
  constraints : ∀ r ∈ m.constraints,
    Within (cs.get r).lower (cs.get r).upper ((cs.get r).expression.total a)

/-- The sum of the coefficients of a row times the values of their columns. -/
def Row.total (r : Row) (x : ℕ → ℚ) : ℚ := (r.entries.map fun (j, c) => Limits.exact c * x j).sum

namespace Problem

/-- Values of columns are feasible. -/
structure Feasible (p : Problem) (x : ℕ → ℚ) : Prop where
  columns : ∀ j, 1 ≤ j → j ≤ p.columnCount →
    Within (p.column j).span.bounds.1 (p.column j).span.bounds.2 (x j)
  integral : ∀ j, 1 ≤ j → j ≤ p.columnCount → (p.column j).kind ≠ .continuous → ∃ n : ℤ, x j = n
  rows : ∀ i, 1 ≤ i → i ≤ p.rowCount →
    Within (p.row i).span.bounds.1 (p.row i).span.bounds.2 ((p.row i).total x)

/-- The weights of the columns times their values. -/
def total (p : Problem) (x : ℕ → ℚ) : ℚ :=
  ∑ j ∈ Finset.Icc 1 p.columnCount, Limits.exact (p.weight j) * x j

/-- The value of the objective. -/
def worth? (p : Problem) (x : ℕ → ℚ) : Option ℚ := (exactValue? (p.weight 0)).map (· + p.total x)

end Problem

/-- The values of the columns that belong to values of variables. -/
def Model.vector (m : Model) (a : Variable → ℚ) (j : ℕ) : ℚ :=
  ((m.decisions[j - 1]?).map a).getD 0

/-! ### Places -/

section

variable {x y lower upper : Float} {q : ℚ}

theorem within_congr {lower' upper' : Float} (hl : place? lower' = place? lower)
    (hu : place? upper' = place? upper) : Within lower' upper' q ↔ Within lower upper q := by
  unfold Within
  rw [hl, hu]

/-- A value lies between two floats when it lies between their places. -/
theorem within_iff {a b : Extended} (hl : place? lower = some a) (hu : place? upper = some b) :
    Within lower upper q ↔ a ≤ .ofRat q ∧ .ofRat q ≤ b := by
  simp [Within, hl, hu]

/-- Only one value lies between a float and itself. -/
theorem within_self : Within x x q ↔ place? x = some (.ofRat q) := by
  constructor
  · rintro ⟨a, b, ha, hb, hlower, hupper⟩
    rw [ha, Option.some.injEq] at hb
    subst hb
    rw [ha, le_antisymm hlower hupper]
  · exact fun h => ⟨_, _, h, h, le_rfl, le_rfl⟩

/-! ### Spans -/

theorem place?_eq_of_beq (h : (x == y) = true) : place? x = place? y := by
  obtain ⟨a, hx, hy⟩ := Decimal.beq_iff.1 h
  rw [hx, hy]

/-- Engines keep the bounds that floats set, whatever the shape. -/
theorem place?_keep {t : BoundType} (h : BoundType.classify lower upper = .ok t) :
    place? (Span.keep t lower upper).bounds.1 = place? lower ∧
      place? (Span.keep t lower upper).bounds.2 = place? upper := by
  obtain ⟨a, b, hl, hu, -, -, rfl⟩ := BoundType.classify_eq_ok_iff.1 h
  rw [hl, hu]
  unfold BoundType.ofPlaces
  split_ifs with htop hbot hbot heq
  · subst htop hbot
    exact ⟨Decimal.place?_negativeInfinity, Decimal.place?_infinity⟩
  · subst htop
    exact ⟨hl, Decimal.place?_infinity⟩
  · subst hbot
    exact ⟨Decimal.place?_negativeInfinity, hu⟩
  · subst heq
    exact ⟨hl, hl⟩
  · exact ⟨hl, hu⟩

/-- A binary column is kept between zero and one. -/
theorem place?_ofKind {c : Column} {kind : ColumnKind}
    (h : kind = .binary → place? c.span.bounds.1 = some (.ofRat 0) ∧
      place? c.span.bounds.2 = some (.ofRat 1)) :
    place? (c.ofKind kind).span.bounds.1 = place? c.span.bounds.1 ∧
      place? (c.ofKind kind).span.bounds.2 = place? c.span.bounds.2 := by
  cases kind with
  | continuous => exact ⟨rfl, rfl⟩
  | integer => exact ⟨rfl, rfl⟩
  | binary =>
    obtain ⟨hl, hu⟩ := h rfl
    simp only [Column.ofKind]
    split_ifs
    · exact ⟨rfl, rfl⟩
    · exact ⟨Decimal.place?_zero.trans hl.symm, Decimal.place?_one.trans hu.symm⟩

/-- A bound that is equal to zero or one lies there. -/
theorem place?_of_same {b : Scalar} {n : ℤ} (hn : n = 0 ∨ n = 1) (h : b.same (.integer n) = true)
    (hb : b.toFloat = .ok x) : place? x = some (.ofRat n) := by
  cases b with
  | nothing => cases h
  | text s => cases h
  | number b =>
    cases b with
    | real y =>
      obtain rfl : y = x := Except.ok.inj hb
      have hy : Number.compareFloatInt y n = some .eq := beq_iff_eq.1 h
      exact exactValue?_eq_some_iff.1 (Expression.compareFloatInt_eq.1 hy)
    | truth b =>
      have hw : (Number.truth b).whole? = some n := beq_iff_eq.1 h
      cases hb
      cases b <;> cases hw <;> simp
    | integer k =>
      have hw : (Number.integer k).whole? = some n := beq_iff_eq.1 h
      obtain rfl : k = n := Option.some.inj hw
      rcases hn with rfl | rfl
      · obtain rfl : 0.0 = x := Except.ok.inj (show Number.floatOfInt 0 = .ok x from hb)
        simp
      · obtain rfl : 1.0 = x := Except.ok.inj (show Number.floatOfInt 1 = .ok x from hb)
        simp

/-- A binary column belongs to a variable from zero to one. -/
theorem places_of_columnKind {domain : Domain} {b : Interval}
    (h : Translation.columnKind domain b = .binary) (hl : b.lower.toFloat = .ok lower)
    (hu : b.upper.toFloat = .ok upper) :
    place? lower = some (.ofRat 0) ∧ place? upper = some (.ofRat 1) := by
  unfold Translation.columnKind at h
  split at h
  · cases h
  · split_ifs at h with hsame
    rw [Bool.and_eq_true] at hsame
    have hzero := place?_of_same (.inl rfl) hsame.1 hl
    have hone := place?_of_same (.inr rfl) hsame.2 hu
    rw [Int.cast_zero] at hzero
    rw [Int.cast_one] at hone
    exact ⟨hzero, hone⟩

/-- The bounds of a column lie where its variable's bounds lie. -/
theorem IsColumn.places {s : Store Interval} {v : Variable} {c : Column}
    (h : Translation.IsColumn s v c) : ∃ lower upper t,
      (s.get v.cell).lower.toFloat = .ok lower ∧ (s.get v.cell).upper.toFloat = .ok upper ∧
      BoundType.classify lower upper = .ok t ∧
      place? c.span.bounds.1 = place? lower ∧ place? c.span.bounds.2 = place? upper := by
  obtain ⟨t, lower, upper, weight, hspan, rfl⟩ := h
  obtain ⟨l, hl, hspan⟩ := bind_eq_ok.1 hspan
  obtain ⟨u, hu, hspan⟩ := bind_eq_ok.1 hspan
  obtain ⟨t', ht, hspan⟩ := bind_eq_ok.1 hspan
  cases hspan
  have hkeep := place?_keep ht
  obtain ⟨hlower, hupper⟩ := place?_ofKind
    (c := ⟨Problem.keptName v.name, .keep t lower upper, false, weight⟩) fun hk =>
      ⟨hkeep.1.trans (places_of_columnKind hk hl hu).1,
        hkeep.2.trans (places_of_columnKind hk hl hu).2⟩
  exact ⟨lower, upper, t, hl, hu, ht, hlower.trans hkeep.1, hupper.trans hkeep.2⟩

/-- The bounds of a column are those that its variable's bounds read as. -/
theorem IsColumn.within {s : Store Interval} {v : Variable} {c : Column}
    (h : Translation.IsColumn s v c) : ∃ lower upper, (s.get v.cell).lower.toFloat = .ok lower ∧
      (s.get v.cell).upper.toFloat = .ok upper ∧
      ∀ q, Within c.span.bounds.1 c.span.bounds.2 q ↔ Within lower upper q := by
  obtain ⟨lower, upper, -, hl, hu, -, hlower, hupper⟩ := IsColumn.places h
  exact ⟨lower, upper, hl, hu, fun q => within_congr hlower hupper⟩

theorem kind_ofKind (c : Column) (kind : ColumnKind) :
    (c.ofKind kind).kind ≠ .continuous ↔ kind ≠ .continuous := by
  have hintegral : ∀ unit : Bool, (if unit then ColumnKind.binary else .integer) ≠ .continuous := by
    decide
  cases kind with
  | continuous => exact iff_of_false (fun h => h rfl) fun h => h rfl
  | integer => exact iff_of_true (hintegral _) (by decide)
  | binary => exact iff_of_true (hintegral _) (by decide)

/-- The columns of integer variables are those that are not continuous. -/
theorem IsColumn.kind {s : Store Interval} {v : Variable} {c : Column}
    (h : Translation.IsColumn s v c) : c.kind ≠ .continuous ↔ v.domain = .integer := by
  obtain ⟨t, lower, upper, weight, -, rfl⟩ := h
  rw [kind_ofKind]
  cases v.domain with
  | continuous => simp [Translation.columnKind]
  | integer =>
    simp only [Translation.columnKind]
    split_ifs <;> simp

/-- While overrides last, the bounds of a variable leave it the values that are allowed. -/
theorem allows_iff {values : Overrides} {s : Store Interval} {v : Variable}
    (hvalues : ∀ x, values.lookup v.name = some x → ∃ y, x.toFloat = .ok y)
    (hl : (values.effective s v).lower.toFloat = .ok lower)
    (hu : (values.effective s v).upper.toFloat = .ok upper) :
    values.Allows s v q ↔ Within lower upper q := by
  unfold Overrides.Allows
  unfold Overrides.effective at hl hu
  cases hv : values.lookup v.name with
  | none =>
    rw [hv] at hl hu
    constructor
    · rintro ⟨lower', upper', hl', hu', h⟩
      rw [hl, Except.ok.injEq] at hl'
      rw [hu, Except.ok.injEq] at hu'
      exact hl' ▸ hu' ▸ h
    · exact fun h => ⟨lower, upper, hl, hu, h⟩
  | some x =>
    obtain ⟨y, hy⟩ := hvalues x hv
    simp only [hv, hy] at hl hu
    obtain rfl : y = lower := Except.ok.inj hl
    obtain rfl : y = upper := Except.ok.inj hu
    rw [within_self]
    constructor
    · rintro ⟨y', hy', h⟩
      rw [hy, Except.ok.injEq] at hy'
      exact hy' ▸ h
    · exact fun h => ⟨y, hy, h⟩

end

end Optimization
