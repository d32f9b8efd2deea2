import Optimization.Proofs.Folding
import Optimization.Proofs.Products

/-!
# Sums of places

A float lies at a rational or an infinity, or nowhere if it is not a number. Such spots are added
like floats would be if they never rounded: opposite infinities have no sum, and what lies nowhere
stays there. The order and the association of a sum of spots do not matter.

* `Spot`, and its structure of a commutative monoid;
* `spot_add` : a sum of floats that does not round lies at the sum of their spots;
* `spot_one_mul`, `spot_zero_mul` : products with one and with zero.
-/

namespace Optimization.Decimal
open Float.Model Float.Model.UnpackedFloat

/-- Where a float lies, if it lies anywhere. -/
def Spot := Option Extended

/-- The spot of a float. -/
def spot (x : Float) : Spot := place? x

namespace Spot

/-- Opposite infinities. -/
def Opposite (p q : Extended) : Prop := p = ⊥ ∧ q = ⊤ ∨ p = ⊤ ∧ q = ⊥

instance (p q : Extended) : Decidable (Opposite p q) :=
  inferInstanceAs (Decidable (p = ⊥ ∧ q = ⊤ ∨ p = ⊤ ∧ q = ⊥))

/-- The place of a rational. -/
def ofRat (q : ℚ) : Spot := some (.ofRat q)

/-- What is not a number lies nowhere. -/
def nowhere : Spot := none

/-- The greater infinity. -/
def top : Spot := some ⊤

/-- The lesser infinity. -/
def bottom : Spot := some ⊥

instance : Add Spot :=
  ⟨fun a b => Option.bind a fun p => Option.bind b fun q =>
    if Opposite p q then none else some (p + q)⟩

instance : Zero Spot := ⟨ofRat 0⟩

theorem cases_spot (a : Spot) : a = nowhere ∨ a = bottom ∨ a = top ∨ ∃ q, a = ofRat q := by
  cases a with
  | none => exact .inl rfl
  | some p =>
    rcases Extended.eq_bot_or_top_or_ofRat p with rfl | rfl | ⟨q, rfl⟩
    · exact .inr (.inl rfl)
    · exact .inr (.inr (.inl rfl))
    · exact .inr (.inr (.inr ⟨q, rfl⟩))

variable (a b c : Spot) (p q : ℚ)

@[simp] theorem nowhere_add : nowhere + a = nowhere := rfl

@[simp] theorem add_nowhere : a + nowhere = nowhere := by
  cases a <;> rfl

@[simp] theorem bottom_add_bottom : bottom + bottom = bottom := rfl

@[simp] theorem bottom_add_top : bottom + top = nowhere := rfl

@[simp] theorem top_add_bottom : top + bottom = nowhere := rfl

@[simp] theorem top_add_top : top + top = top := rfl

@[simp] theorem bottom_add_ofRat : bottom + ofRat q = bottom := rfl

@[simp] theorem top_add_ofRat : top + ofRat q = top := rfl

@[simp] theorem ofRat_add_bottom : ofRat q + bottom = bottom := rfl

@[simp] theorem ofRat_add_top : ofRat q + top = top := rfl

@[simp] theorem ofRat_add_ofRat : ofRat p + ofRat q = ofRat (p + q) := rfl

instance : AddCommMonoid Spot where
  add_assoc a b c := by
    rcases cases_spot a with rfl | rfl | rfl | ⟨p, rfl⟩ <;>
    rcases cases_spot b with rfl | rfl | rfl | ⟨q, rfl⟩ <;>
    rcases cases_spot c with rfl | rfl | rfl | ⟨r, rfl⟩ <;>
    simp [add_assoc]
  zero_add a := by
    show ofRat 0 + a = a
    rcases cases_spot a with rfl | rfl | rfl | ⟨q, rfl⟩ <;> simp
  add_zero a := by
    show a + ofRat 0 = a
    rcases cases_spot a with rfl | rfl | rfl | ⟨q, rfl⟩ <;> simp
  add_comm a b := by
    rcases cases_spot a with rfl | rfl | rfl | ⟨p, rfl⟩ <;>
    rcases cases_spot b with rfl | rfl | rfl | ⟨q, rfl⟩ <;>
    simp [add_comm]
  nsmul := nsmulRec

end Spot

/-! ### Sums and products of floats -/

variable {x y : Float} {q r : ℚ}

theorem spot_of_exactValue? (h : exactValue? x = some q) : spot x = .ofRat q :=
  exactValue?_eq_some_iff.1 h

/-- The spot of a float taken apart. -/
theorem spot_eq (x : Float) : spot x = placeUnpacked? x.toModel.unpack := place?_eq x

/-- A float is finite, an infinity or not a number. -/
theorem finite_or_not (x : Float) : (∃ q, exactValue? x = some q) ∨
    x.toModel.unpack = .notANumber ∨ ∃ s, x.toModel.unpack = .infinity s := by
  cases h : exactValue? x with
  | some q => exact .inl ⟨q, rfl⟩
  | none =>
    cases hp : place? x with
    | none =>
      rw [place?_eq] at hp
      exact .inr (.inl (eq_notANumber_of_place? hp))
    | some p => exact .inr (.inr (unpack_eq_infinity hp h))

/-- The spot of a float put together. -/
def spotOf (a : UnpackedFloat) : Spot :=
  placeUnpacked? (unpack Format.binary64 (UnpackedFloat.pack Format.binary64 a))

theorem spotOf_notANumber : spotOf .notANumber = Spot.nowhere := rfl

theorem spotOf_infinity (s : Sign) : spotOf (.infinity s) = placeUnpacked? (.infinity s) := by
  cases s <;> rfl

theorem spot_add_eq (x y : Float) :
    spot (x + y) = spotOf (UnpackedFloat.add Format.binary64 x.toModel.unpack y.toModel.unpack) :=
  place?_eq (x + y)

theorem spot_mul_eq (x y : Float) :
    spot (x * y) = spotOf (UnpackedFloat.mul Format.binary64 x.toModel.unpack y.toModel.unpack) :=
  place?_eq (x * y)

/-- **A sum that does not round lies at the sum of the spots.** -/
theorem spot_add (h : (Operation.add x y).isExact = true) : spot (x + y) = spot x + spot y := by
  rcases finite_or_not x with ⟨q, hx⟩ | hx | ⟨s, hx⟩
  · rcases finite_or_not y with ⟨r, hy⟩ | hy | ⟨t, hy⟩
    · have hsum := Operation.result_of_isExact h (Operation.ideal?_add hx hy)
      rw [spot_of_exactValue? hx, spot_of_exactValue? hy, Spot.ofRat_add_ofRat]
      exact spot_of_exactValue? hsum
    · have hsum : UnpackedFloat.add Format.binary64 x.toModel.unpack .notANumber =
          .notANumber := by
        cases x.toModel.unpack <;> rfl
      rw [spot_add_eq, spot_eq y, hy, hsum]
      exact (Spot.add_nowhere _).symm
    · have hsum : UnpackedFloat.add Format.binary64 x.toModel.unpack (.infinity t) =
          .infinity t := by
        rcases unpack_of_exactValue? hx with ⟨s, hs⟩ | ⟨s, m, e, hm, hs⟩ <;> rw [hs] <;> rfl
      rw [spot_of_exactValue? hx, spot_add_eq, spot_eq y, hy, hsum, spotOf_infinity]
      cases t <;> rfl
  · have hsum : UnpackedFloat.add Format.binary64 .notANumber y.toModel.unpack =
        .notANumber := rfl
    rw [spot_add_eq, spot_eq x, hx, hsum]
    rfl
  · rcases finite_or_not y with ⟨r, hy⟩ | hy | ⟨t, hy⟩
    · have hsum : UnpackedFloat.add Format.binary64 (.infinity s) y.toModel.unpack =
          .infinity s := by
        rcases unpack_of_exactValue? hy with ⟨t, ht⟩ | ⟨t, m, e, hm, ht⟩ <;> rw [ht] <;> rfl
      rw [spot_of_exactValue? hy, spot_add_eq, spot_eq x, hx, hsum, spotOf_infinity]
      cases s <;> rfl
    · rw [spot_add_eq, spot_eq x, spot_eq y, hx, hy]
      cases s <;> rfl
    · rw [spot_add_eq, spot_eq x, spot_eq y, hx, hy]
      cases s <;> cases t <;> rfl

/-- A product with one that does not round stays where it is. -/
theorem spot_one_mul (h : (Operation.mul 1.0 y).isExact = true) : spot (1.0 * y) = spot y := by
  have hone : (1.0 : Float).toModel.unpack = .finite .positive (2 ^ 52) (-52) (by decide) := by rfl
  rcases finite_or_not y with ⟨r, hy⟩ | hy | ⟨t, hy⟩
  · have hproduct := Operation.result_of_isExact h (Operation.ideal?_mul exactValue?_one hy)
    rw [one_mul] at hproduct
    exact (spot_of_exactValue? hproduct).trans (spot_of_exactValue? hy).symm
  · rw [spot_mul_eq, spot_eq y, hy, hone]
    rfl
  · rw [spot_mul_eq, spot_eq y, hy, hone]
    cases t <;> rfl

/-- A product of zero with a finite float is zero. -/
theorem spot_zero_mul (h : exactValue? y = some r) : spot (0.0 * y) = 0 := by
  have hproduct := place?_mul exactValue?_zero h
  rw [zero_mul, nearestPlace_zero] at hproduct
  exact hproduct

/-- A product of zero with a float that is not finite lies nowhere. -/
theorem spot_zero_mul_of_not_finite (h : exactValue? y = none) :
    spot (0.0 * y) = Spot.nowhere := by
  have hzero : (0.0 : Float).toModel.unpack = .zero .positive := by rfl
  rcases finite_or_not y with ⟨r, hy⟩ | hy | ⟨t, hy⟩
  · rw [hy] at h
    cases h
  · rw [spot_mul_eq, hy, hzero]
    exact spotOf_notANumber
  · rw [spot_mul_eq, hy, hzero]
    exact spotOf_notANumber

end Optimization.Decimal
