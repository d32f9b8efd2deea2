import Optimization.Proofs.Magnitudes

/-!
# Float operations that do not round

A float operation on finite operands has an ideal result, the rational one. It is exact when its
float lies there. Operands that are not finite have no ideal result, and nothing is asked of them.

* `exactValue?_neg` : a change of sign never rounds;
* `infinite_add`, `infinite_sub` : an infinity stays what it is beside something finite;
* `Operation` : the operations that calculations with numbers are made of;
* `Operation.isExact` : such an operation does not round.
-/

namespace Optimization.Decimal
open Float.Model Float.Model.UnpackedFloat

/-! ### Change of sign -/

section

variable (s : Sign) (e : BitVec Format.binary64.exponentBits)
  (m : BitVec Format.binary64.mantissaBitsWithoutImplicit)

theorem exponent_packComponents : unpackExponent (packComponents Format.binary64 s e m) = e := by
  apply BitVec.eq_of_getLsbD_eq
  intro i hi
  simp only [packComponents, unpackExponent, BitVec.getLsbD_append, BitVec.getLsbD_cast,
    BitVec.getLsbD_extractLsb]
  grind

theorem mantissa_packComponents : unpackMantissa (packComponents Format.binary64 s e m) = m := by
  apply BitVec.eq_of_getLsbD_eq
  intro i hi
  simp only [packComponents, unpackMantissa, BitVec.getLsbD_append, BitVec.getLsbD_cast,
    BitVec.getLsbD_extractLsb]
  grind

theorem sign_packComponents :
    Sign.ofBitVec (unpackSign (packComponents Format.binary64 s e m)) = s := by
  have hword : unpackSign (packComponents Format.binary64 s e m) = s.toBitVec := by
    apply BitVec.eq_of_getLsbD_eq
    intro i hi
    simp only [packComponents, unpackSign, BitVec.getLsbD_append, BitVec.getLsbD_cast,
      BitVec.getLsbD_extractLsb]
    grind
  rw [hword]
  cases s <;> rfl

/-- The word with the other sign. -/
def opposite (b : BitVec Format.binary64.numBits) : BitVec Format.binary64.numBits :=
  packComponents Format.binary64 (-Sign.ofBitVec (unpackSign b)) (unpackExponent b)
    (unpackMantissa b)

/-- The word with the other sign is that of the negative. -/
theorem unpack_opposite (b : BitVec Format.binary64.numBits) :
    unpack Format.binary64 (opposite b) = (unpack Format.binary64 b).neg := by
  unfold opposite UnpackedFloat.unpack
  simp only [exponent_packComponents, mantissa_packComponents, sign_packComponents]
  split_ifs <;> rfl

theorem valid_opposite {b : BitVec Format.binary64.numBits}
    (hnan : unpack Format.binary64 b ≠ .notANumber) : Format.binary64.Valid (opposite b) := by
  refine ⟨fun hexponent hmantissa => absurd ?_ hnan⟩
  rw [opposite, exponent_packComponents] at hexponent
  rw [opposite, mantissa_packComponents] at hmantissa
  unfold UnpackedFloat.unpack
  simp only []
  rw [if_pos hexponent, if_neg hmantissa]

end

/-- A change of sign is one of the float taken apart. -/
theorem unpack_neg (x : Float) : (-x).toModel.unpack = x.toModel.unpack.neg := by
  have hneg : -x = Float.ofModel (.pack x.toModel.unpack.neg) := rfl
  by_cases hnan : x.toModel.unpack = .notANumber
  · rw [hneg, hnan]
    rfl
  · obtain ⟨⟨bits, valid⟩⟩ := x
    have hpack := pack_unpack (valid_opposite hnan)
    rw [unpack_opposite] at hpack
    show unpack Format.binary64
      (UnpackedFloat.pack Format.binary64 (unpack Format.binary64 bits.toBitVec).neg) = _
    rw [hpack, unpack_opposite]
    rfl

variable {x y : Float} {q r : ℚ}

/-- **A change of sign does not round.** -/
theorem exactValue?_neg (h : exactValue? x = some q) : exactValue? (-x) = some (-q) := by
  rw [exactValue?_eq_some_iff, place?_eq] at *
  rw [unpack_neg]
  cases hx : x.toModel.unpack with
  | notANumber => simp [hx, placeUnpacked?] at h
  | infinity s => cases s <;> simp [hx, placeUnpacked?, Extended.ofRat] at h
  | zero s =>
    rw [hx] at h
    obtain rfl : 0 = q := by simpa [placeUnpacked?] using h
    simp [UnpackedFloat.neg, placeUnpacked?]
  | finite s m e hm =>
    rw [hx] at h
    cases s with
    | negative =>
      obtain rfl : -((m : ℚ) * 2 ^ e) = q := by simpa [placeUnpacked?] using h
      show placeUnpacked? (.finite .positive m e hm) = _
      simp [placeUnpacked?]
    | positive =>
      obtain rfl : (m : ℚ) * 2 ^ e = q := by simpa [placeUnpacked?] using h
      rfl

theorem exactValue?_zero : exactValue? 0.0 = some 0 := exactValue?_eq_some_iff.2 place?_zero

theorem exactValue?_one : exactValue? 1.0 = some 1 := exactValue?_eq_some_iff.2 place?_one

theorem exactValue?_negOne : exactValue? (-1.0) = some (-1) := exactValue?_neg exactValue?_one

theorem beq_zero (h : exactValue? x = some q) : (x == 0.0) = decide (q = 0) := by
  rw [beq_eq_decide (exactValue?_eq_some_iff.1 h) place?_zero]
  simp only [ofRat_inj]

/-! ### Infinities -/

/-- A number without a rational value is an infinity. -/
theorem unpack_eq_infinity {p : Extended} (hp : place? x = some p) (hx : exactValue? x = none) :
    ∃ s, x.toModel.unpack = .infinity s := by
  have hvalue : ∀ q, place? x ≠ some (.ofRat q) := fun q h => by
    rw [exactValue?_eq_some_iff.2 h] at hx
    cases hx
  rw [place?_eq] at hp hvalue
  cases h : x.toModel.unpack with
  | notANumber => simp [h, placeUnpacked?] at hp
  | infinity s => exact ⟨s, rfl⟩
  | zero s => exact absurd (by rw [h]; rfl) (hvalue 0)
  | finite s m e hm => cases s <;> exact absurd (by rw [h]; rfl) (hvalue _)

theorem unpack_of_exactValue? (h : exactValue? x = some q) :
    (∃ s, x.toModel.unpack = .zero s) ∨ ∃ s m e hm, x.toModel.unpack = .finite s m e hm := by
  rw [exactValue?_eq_some_iff, place?_eq] at h
  cases hx : x.toModel.unpack with
  | notANumber => simp [hx, placeUnpacked?] at h
  | infinity s => cases s <;> simp [hx, placeUnpacked?, Extended.ofRat] at h
  | zero s => exact .inl ⟨s, rfl⟩
  | finite s m e hm => exact .inr ⟨s, m, e, hm, rfl⟩

/-- An infinity plus something finite is that infinity. -/
theorem infinite_add {p : Extended} (hp : place? x = some p) (hx : exactValue? x = none)
    (hy : exactValue? y = some r) : x + y = x := by
  obtain ⟨s, hs⟩ := unpack_eq_infinity hp hx
  have hadd : x + y = Float.ofModel
      (.pack (UnpackedFloat.add Format.binary64 x.toModel.unpack y.toModel.unpack)) := rfl
  have hpack := ofModel_pack_unpack x
  rw [hs] at hpack hadd
  rcases unpack_of_exactValue? hy with ⟨t, ht⟩ | ⟨t, m, e, hm, ht⟩ <;>
    rw [hadd, ht] <;> exact hpack

/-- An infinity minus something finite is that infinity. -/
theorem infinite_sub {p : Extended} (hp : place? x = some p) (hx : exactValue? x = none)
    (hy : exactValue? y = some r) : x - y = x := by
  obtain ⟨s, hs⟩ := unpack_eq_infinity hp hx
  have hsub : x - y = Float.ofModel
      (.pack (UnpackedFloat.sub Format.binary64 x.toModel.unpack y.toModel.unpack)) := rfl
  have hpack := ofModel_pack_unpack x
  rw [hs] at hpack hsub
  rcases unpack_of_exactValue? hy with ⟨t, ht⟩ | ⟨t, m, e, hm, ht⟩ <;>
    rw [hsub, ht] <;> exact hpack

/-- Something finite plus an infinity is that infinity. -/
theorem add_infinite {p : Extended} (hx : exactValue? x = some q) (hp : place? y = some p)
    (hy : exactValue? y = none) : x + y = y := by
  obtain ⟨s, hs⟩ := unpack_eq_infinity hp hy
  have hadd : x + y = Float.ofModel
      (.pack (UnpackedFloat.add Format.binary64 x.toModel.unpack y.toModel.unpack)) := rfl
  have hpack := ofModel_pack_unpack y
  rw [hs] at hpack hadd
  rcases unpack_of_exactValue? hx with ⟨t, ht⟩ | ⟨t, m, e, hm, ht⟩ <;>
    rw [hadd, ht] <;> exact hpack

/-- There is one float at each infinity. -/
theorem eq_of_place? {p : Extended} (hx : place? x = some p) (hy : place? y = some p)
    (hnone : exactValue? x = none) : x = y := by
  have hnone' : exactValue? y = none := (exactValue?_congr (hy.trans hx.symm)).trans hnone
  obtain ⟨s, hs⟩ := unpack_eq_infinity hx hnone
  obtain ⟨t, ht⟩ := unpack_eq_infinity hy hnone'
  have hpack := ofModel_pack_unpack x
  have hpack' := ofModel_pack_unpack y
  rw [place?_eq, hs] at hx
  rw [place?_eq, ht] at hy
  rw [← hpack, ← hpack', hs, ht]
  rw [← hx] at hy
  cases s <;> cases t <;> first | rfl | simp [placeUnpacked?] at hy

theorem isInf_of_exactValue? (h : exactValue? x = some q) : x.isInf = false := by
  show x.toModel.unpack.isInf = false
  rcases unpack_of_exactValue? h with ⟨s, hs⟩ | ⟨s, m, e, hm, hs⟩ <;> rw [hs] <;> rfl

/-! ### Operations -/

/-- A float operation with its operands. -/
inductive Operation
  /-- An integer becomes a float. -/
  | ofInteger (n : Int)
  /-- Two integers become the float of their quotient. -/
  | ofRatio (m n : Int)
  | add (x y : Float)
  | sub (x y : Float)
  | mul (x y : Float)
  | div (x y : Float)

namespace Operation

/-- The float that an operation makes. -/
def result : Operation → Float
  | ofInteger n => nearestInt n
  | ofRatio m n => nearestRatio (decide (m < 0) != decide (n < 0)) m.natAbs n.natAbs
  | add x y => x + y
  | sub x y => x - y
  | mul x y => x * y
  | div x y => x / y

/-- The rational that an operation would make without rounding; operands that are not finite, and
quotients by zero, have none. -/
def ideal? : Operation → Option ℚ
  | ofInteger n => some n
  | ofRatio m n => if n = 0 then none else some (m / n)
  | add x y => do pure ((← exactValue? x) + (← exactValue? y))
  | sub x y => do pure ((← exactValue? x) - (← exactValue? y))
  | mul x y => do pure ((← exactValue? x) * (← exactValue? y))
  | div x y => do
    let q ← exactValue? x
    let r ← exactValue? y
    if r = 0 then none else pure (q / r)

/-- The operation does not round. -/
def isExact (o : Operation) : Bool := o.ideal?.all fun q => exactValue? o.result == some q

theorem result_of_isExact {o : Operation} (h : o.isExact = true) (hq : o.ideal? = some q) :
    exactValue? o.result = some q := by
  unfold isExact at h
  rw [hq] at h
  simpa using h

variable (hx : exactValue? x = some q) (hy : exactValue? y = some r)

include hx hy

theorem ideal?_add : (add x y).ideal? = some (q + r) := by
  simp [ideal?, hx, hy]

theorem ideal?_sub : (sub x y).ideal? = some (q - r) := by
  simp [ideal?, hx, hy]

theorem ideal?_mul : (mul x y).ideal? = some (q * r) := by
  simp [ideal?, hx, hy]

theorem ideal?_div (hr : r ≠ 0) : (div x y).ideal? = some (q / r) := by
  simp [ideal?, hx, hy, hr]

end Operation

end Optimization.Decimal
