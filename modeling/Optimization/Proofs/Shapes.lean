import Optimization.Bounds
import Optimization.Proofs.Places

/-!
# Shapes of bounds

The shape of two bounds depends on their places only. Bounds have a shape unless one of them is
not a number or an infinity on the wrong side.

* `BoundType.ofPlaces` : the shape of two places;
* `classify_eq_ok_iff` : which bounds have a shape, and which one.
-/

namespace Optimization.BoundType
open Decimal

variable {lower upper : Float} {a b : Extended} {t : BoundType}

/-- The shape of an interval between two places. -/
def ofPlaces (a b : Extended) : BoundType :=
  if b = ⊤ then (if a = ⊥ then .free else .lower)
  else if a = ⊥ then .upper
  else if a = b then .fixed
  else .range

@[simp] theorem ofPlaces_upper (q : ℚ) : ofPlaces ⊥ (.ofRat q) = .upper := by
  simp [ofPlaces, (ofRat_lt_top q).ne]

@[simp] theorem ofPlaces_lower (q : ℚ) : ofPlaces (.ofRat q) ⊤ = .lower := by
  simp [ofPlaces, (bot_lt_ofRat q).ne']

@[simp] theorem ofPlaces_ofRat (q r : ℚ) :
    ofPlaces (.ofRat q) (.ofRat r) = if q = r then .fixed else .range := by
  simp [ofPlaces, (ofRat_lt_top r).ne, (bot_lt_ofRat q).ne']

/-- Bounds at places that bounds may have get the shape of their places. -/
theorem classify_of_place? (hl : place? lower = some a) (hu : place? upper = some b) (ha : a ≠ ⊤)
    (hb : b ≠ ⊥) : classify lower upper = .ok (ofPlaces a b) := by
  have hnan : (lower.isNaN || upper.isNaN) = false := by
    rw [Bool.or_eq_false_iff, ← Bool.not_eq_true, ← Bool.not_eq_true, isNaN_iff, isNaN_iff, hl, hu]
    simp
  unfold classify ofPlaces
  rw [hnan]
  simp only [beq_eq_decide hl place?_infinity, beq_eq_decide hl place?_negativeInfinity,
    beq_eq_decide hu place?_infinity, beq_eq_decide hu place?_negativeInfinity,
    beq_eq_decide hl hu, ha, hb]
  by_cases htop : b = ⊤ <;> by_cases hbot : a = ⊥ <;> simp [htop, hbot] <;> rfl

/-- **Bounds have a shape when they are numbers and no infinities on the wrong side, and it is the
shape of their places.** -/
theorem classify_eq_ok_iff : classify lower upper = .ok t ↔
    ∃ a b, place? lower = some a ∧ place? upper = some b ∧ a ≠ ⊤ ∧ b ≠ ⊥ ∧ t = ofPlaces a b := by
  constructor
  · intro h
    have hshape := h
    unfold classify at h
    split at h
    · cases h
    · next hnan =>
      rw [Bool.or_eq_true, not_or, isNaN_iff, isNaN_iff] at hnan
      obtain ⟨a, hl⟩ := Option.ne_none_iff_exists'.1 hnan.1
      obtain ⟨b, hu⟩ := Option.ne_none_iff_exists'.1 hnan.2
      simp only [beq_eq_decide hl place?_infinity, beq_eq_decide hu place?_negativeInfinity,
        decide_eq_true_eq] at h
      by_cases ha : a = ⊤
      · rw [if_pos ha] at h
        cases h
      · by_cases hb : b = ⊥
        · rw [if_neg ha, if_pos hb] at h
          cases h
        · rw [classify_of_place? hl hu ha hb] at hshape
          exact ⟨a, b, hl, hu, ha, hb, (Except.ok.inj hshape).symm⟩
  · rintro ⟨a, b, hl, hu, ha, hb, rfl⟩
    exact classify_of_place? hl hu ha hb

end Optimization.BoundType
