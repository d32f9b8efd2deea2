import Optimization.Proofs.Places
import Optimization.Value.Number

/-!
# Magnitudes of floats

A factor counts as zero by its magnitude. One that does not count as zero is not zero, and it does
not count as zero either when it is read as a float.

* `zero_add_of_significant` : adding to zero changes no float that counts;
* `one_le_nearestInt` : the float nearest to an integer other than zero is at least one away from
  zero;
* `significant_of_toFloat` : factors that count are read as floats that count.
-/

namespace Optimization
open Float.Model Float.Model.UnpackedFloat

namespace Decimal

/-! ### Words -/

/-- The word of a natural number. -/
def word (n : ℕ) : BitVec Format.binary64.numBits := BitVec.ofNat 64 n

section

variable {b : ℕ}

/-- The words of a magnitude with either sign. -/
def signed (negative : Bool) (b : ℕ) : ℕ := if negative then 2 ^ 63 + b else b

theorem exponent_word (negative : Bool) (hb : b < 2 ^ 63) :
    (unpackExponent (word (signed negative b))).toNat = b / 2 ^ 52 := by
  show ((signed negative b % 2 ^ 64) >>> 52) % 2 ^ 11 = _
  rw [Nat.shiftRight_eq_div_pow]
  unfold signed
  split_ifs <;> omega

theorem mantissa_word (negative : Bool) (b : ℕ) :
    (unpackMantissa (word (signed negative b))).toNat = b % 2 ^ 52 := by
  show ((signed negative b % 2 ^ 64) >>> 0) % 2 ^ 52 = _
  rw [Nat.shiftRight_zero]
  unfold signed
  split_ifs <;> omega

theorem sign_word (hb : b < 2 ^ 63) : unpackSign (word b) = 0#1 := by
  apply BitVec.eq_of_toNat_eq
  show ((b % 2 ^ 64) >>> 63) % 2 ^ 1 = 0
  rw [Nat.shiftRight_eq_div_pow]
  omega

/-- Without its sign, a word is that of its magnitude. -/
theorem abs_unpack_word (negative : Bool) (hb : b < 2 ^ 63) :
    (unpack Format.binary64 (word (signed negative b))).abs = unpack Format.binary64 (word b) := by
  have hexponent : unpackExponent (word (signed negative b)) = unpackExponent (word b) :=
    BitVec.eq_of_toNat_eq ((exponent_word negative hb).trans (exponent_word false hb).symm)
  have hmantissa : unpackMantissa (word (signed negative b)) = unpackMantissa (word b) :=
    BitVec.eq_of_toNat_eq ((mantissa_word negative b).trans (mantissa_word false b).symm)
  unfold UnpackedFloat.unpack
  simp only [hexponent, hmantissa, sign_word hb]
  split_ifs <;> rfl

/-- The words up to that of infinity are those of numbers. -/
theorem valid_word (negative : Bool) (hb : b ≤ 2047 * 2 ^ 52) :
    Format.binary64.Valid (word (signed negative b)) := by
  refine ⟨fun hexponent hmantissa => ?_⟩
  have he := exponent_word negative (show b < 2 ^ 63 by omega)
  have hm := mantissa_word negative b
  rw [hexponent] at he
  have hne : (unpackMantissa (word (signed negative b))).toNat ≠ 0 :=
    fun h => hmantissa (BitVec.eq_of_toNat_eq h)
  have : b / 2 ^ 52 = 2047 := he.symm
  omega

/-- A word that is valid is taken apart as it stands. -/
theorem unpack_ofBits (negative : Bool) (hb : b ≤ 2047 * 2 ^ 52) :
    (Float.ofBits (UInt64.ofNat (signed negative b))).toModel.unpack =
      unpack Format.binary64 (word (signed negative b)) :=
  congrArg (unpack Format.binary64) (pack_unpack (valid_word negative hb))

/-- The magnitude of a float has the word without the sign. -/
theorem abs_ofBits (negative : Bool) (hb : b ≤ 2047 * 2 ^ 52) :
    (Float.ofBits (UInt64.ofNat (signed negative b))).abs = Float.ofBits (UInt64.ofNat b) := by
  have habs : (Float.ofBits (UInt64.ofNat (signed negative b))).abs =
      Float.ofModel (.pack
        (Float.ofBits (UInt64.ofNat (signed negative b))).toModel.unpack.abs) := rfl
  rw [habs, unpack_ofBits negative hb, abs_unpack_word negative (by omega)]
  rfl

theorem positive_word (hb : b < 2 ^ 63) : Sign.ofBitVec (unpackSign (word b)) = .positive := by
  rw [sign_word hb]
  rfl

/-- The greatest exponent is that of infinity, as the words end there. -/
theorem place_of_top (hb : b ≤ 2047 * 2 ^ 52) (htop : unpackExponent (word b) = -1#11) :
    placeUnpacked? (unpack Format.binary64 (word b)) = some ⊤ := by
  have hsmall : b < 2 ^ 63 := by omega
  have hexponent := exponent_word false hsmall
  have hmantissa := mantissa_word false b
  simp only [signed, Bool.false_eq_true, if_false] at hexponent hmantissa
  rw [htop] at hexponent
  have htopmost : 2047 = b / 2 ^ 52 := hexponent
  have hnone : unpackMantissa (word b) = 0#52 := by
    apply BitVec.eq_of_toNat_eq
    rw [hmantissa]
    show _ = 0
    omega
  unfold UnpackedFloat.unpack
  simp only []
  rw [if_pos htop, if_pos hnone, positive_word hsmall]
  rfl

/-- The place of a normal float. -/
theorem place_of_normal (hb : b < 2 ^ 63) (htop : unpackExponent (word b) ≠ -1#11)
    (hzero : unpackExponent (word b) ≠ 0#11) :
    placeUnpacked? (unpack Format.binary64 (word b)) =
      some (.ofRat ((1#1 ++ unpackMantissa (word b)).toNat *
        2 ^ (((unpackExponent (word b)).toNat : ℤ) - 1075))) := by
  unfold UnpackedFloat.unpack
  simp only []
  rw [if_neg htop, if_neg hzero, positive_word hb]
  rfl

/-- From the word of one on, floats are at least one. -/
theorem one_le_ofBits (hone : 1023 * 2 ^ 52 ≤ b) (hb : b ≤ 2047 * 2 ^ 52) :
    ∃ p, place? (Float.ofBits (UInt64.ofNat b)) = some p ∧ .ofRat 1 ≤ p := by
  have hsmall : b < 2 ^ 63 := by omega
  have hexponent := exponent_word false hsmall
  simp only [signed, Bool.false_eq_true, if_false] at hexponent
  rw [place?_eq, show Float.ofBits (UInt64.ofNat b) =
    Float.ofBits (UInt64.ofNat (signed false b)) from rfl, unpack_ofBits false hb]
  show ∃ p, placeUnpacked? (unpack Format.binary64 (word b)) = some p ∧ _
  by_cases htop : unpackExponent (word b) = -1#11
  · exact ⟨⊤, place_of_top hb htop, le_top⟩
  · have hzero : unpackExponent (word b) ≠ 0#11 := by
      intro h
      rw [h] at hexponent
      have hnone : 0 = b / 2 ^ 52 := hexponent
      omega
    refine ⟨_, place_of_normal hsmall htop hzero, ?_⟩
    have hm : 2 ^ 52 ≤ (1#1 ++ unpackMantissa (word b)).toNat := by
      rw [significand_toNat]
      omega
    have hm' : (2 : ℚ) ^ 52 ≤ (1#1 ++ unpackMantissa (word b)).toNat := by exact_mod_cast hm
    have hexp : (2 : ℚ) ^ (-52 : ℤ) ≤ 2 ^ (((unpackExponent (word b)).toNat : ℤ) - 1075) :=
      zpow_le_zpow_right₀ (by norm_num) (by omega)
    rw [ofRat_le_ofRat]
    calc (1 : ℚ) = 2 ^ 52 * 2 ^ (-52 : ℤ) := by norm_num
      _ ≤ _ := by gcongr

end

/-! ### Rounded integers -/

theorem le_roundDiv {n d k : ℕ} (hd : 0 < d) (h : k * d ≤ n) : k ≤ roundDiv n d := by
  have hk : k ≤ n / d := (Nat.le_div_iff_mul_le hd).2 h
  unfold roundDiv
  simp only []
  split_ifs <;> omega

/-- Shifting a natural number by binary places shifts its leading place. -/
theorem le_shiftRatio {n i j : ℕ} {k : ℤ} (hn : 2 ^ i ≤ n) (hk : (j : ℤ) = i + k) :
    0 < (shiftRatio n 1 k).2 ∧ 2 ^ j * (shiftRatio n 1 k).2 ≤ (shiftRatio n 1 k).1 := by
  unfold shiftRatio
  simp only [Nat.pow_eq]
  split_ifs with hneg
  · refine ⟨by positivity, ?_⟩
    rw [one_mul, ← pow_add, show j + k.natAbs = i by omega]
    exact hn
  · refine ⟨one_pos, ?_⟩
    rw [mul_one, show j = i + k.natAbs by omega, pow_add]
    exact Nat.mul_le_mul_right _ hn

theorem nearestBits_le (n d : ℕ) : nearestBits n d ≤ 2047 * 2 ^ 52 := by
  unfold nearestBits
  exact Nat.min_le_right _ _

theorem leadingExponent_one {n : ℕ} (hn : n ≠ 0) : leadingExponent n 1 = (n.log2 : ℤ) - 52 := by
  have hlog : 2 ^ n.log2 ≤ n := Nat.log2_self_le hn
  have hone : ((Nat.log2 1 : ℕ) : ℤ) = 0 := rfl
  obtain ⟨-, hguess⟩ := le_shiftRatio (j := 53) (k := -((n.log2 : ℤ) - 0 - 53)) hlog (by omega)
  unfold leadingExponent
  simp only [hone]
  -- the guess is one too small, as the quotient has its leading place there
  rw [if_neg (by rw [mul_comm]; exact not_lt.2 hguess)]
  omega

/-- A positive integer is rounded to the word of one or to a later word. -/
theorem le_nearestBits {n : ℕ} (hn : n ≠ 0) : 1023 * 2 ^ 52 ≤ nearestBits n 1 := by
  have hlog : 2 ^ n.log2 ≤ n := Nat.log2_self_le hn
  obtain ⟨hpos, hround⟩ := le_shiftRatio (j := 52) (k := -((n.log2 : ℤ) - 52)) hlog (by omega)
  have hmantissa := le_roundDiv hpos hround
  have hexponent : 1022 ≤ ((n.log2 : ℤ) - 52 + 1074).toNat := by omega
  unfold nearestBits
  simp only [leadingExponent_one hn]
  refine Nat.le_min.2 ⟨?_, by norm_num⟩
  calc 1023 * 2 ^ 52 = 1022 * 2 ^ 52 + 2 ^ 52 := by norm_num
    _ ≤ _ := Nat.add_le_add (Nat.mul_le_mul_right _ hexponent) hmantissa

/-- **The float nearest to an integer other than zero is at least one away from zero.** -/
theorem one_le_nearestInt {n : ℤ} (hn : n ≠ 0) :
    ∃ p, place? (nearestInt n).abs = some p ∧ .ofRat 1 ≤ p := by
  have habs : n.natAbs ≠ 0 := Int.natAbs_ne_zero.2 hn
  have hfloat : nearestInt n =
      Float.ofBits (UInt64.ofNat (signed (decide (n < 0)) (nearestBits n.natAbs 1))) := by
    rw [nearestInt, nearestRatio, if_neg habs]
    rfl
  rw [hfloat, abs_ofBits _ (nearestBits_le _ _)]
  exact one_le_ofBits (le_nearestBits habs) (nearestBits_le _ _)

/-! ### Zeros -/

variable {x : Float}

/-- A float that lies at zero is a zero of either sign. -/
theorem unpack_eq_zero (h : place? x = some (.ofRat 0)) : ∃ s, x.toModel.unpack = .zero s := by
  rw [place?_eq] at h
  cases hx : x.toModel.unpack with
  | notANumber => simp [hx, placeUnpacked?] at h
  | infinity s =>
    rw [hx] at h
    cases s with
    | positive => exact absurd (Option.some.inj h) (ofRat_lt_top 0).ne'
    | negative => exact absurd (Option.some.inj h) (bot_lt_ofRat 0).ne
  | zero s => exact ⟨s, rfl⟩
  | finite s m e hm =>
    have hpos : (0 : ℚ) < m * 2 ^ e := by positivity
    cases s <;> simp [hx, placeUnpacked?, hpos.ne'] at h

/-- Adding to zero changes no float that does not lie at zero. -/
theorem zero_add_of_place? (h : place? x ≠ some (.ofRat 0)) : 0.0 + x = x := by
  have hadd : 0.0 + x = Float.ofModel
      (.pack (UnpackedFloat.add Format.binary64 (.zero .positive) x.toModel.unpack)) := rfl
  have hpack := ofModel_pack_unpack x
  rw [hadd]
  cases hx : x.toModel.unpack with
  | zero s =>
    rw [place?_eq, hx] at h
    exact absurd rfl h
  | _ =>
    rw [hx] at hpack
    exact hpack

/-- The magnitude of a zero is zero. -/
theorem abs_of_zero (h : place? x = some (.ofRat 0)) : x.abs = 0.0 := by
  obtain ⟨s, hs⟩ := unpack_eq_zero h
  have habs : x.abs = Float.ofModel (.pack x.toModel.unpack.abs) := rfl
  rw [habs, hs]
  rfl

end Decimal

/-! ### Significance -/

namespace Number
open Decimal

variable {x : Float}

/-- The least magnitude that counts lies below one. -/
theorem significant_of_one_le {p : Extended} (hx : place? x.abs = some p) (hp : .ofRat 1 ≤ p) :
    (Number.real x).isSignificant = true := by
  have hlt : (1e-15 : Float) < 1.0 := by decide
  obtain ⟨q, r, hq, hr, hqr⟩ := lt_iff.1 hlt
  rw [place?_one, Option.some.injEq] at hr
  exact decide_eq_true (lt_iff.2 ⟨q, p, hq, hx, hqr.trans_le (hr ▸ hp)⟩)

/-- A zero does not count. -/
theorem place?_of_significant (h : (Number.real x).isSignificant = true) :
    place? x ≠ some (.ofRat 0) := by
  intro hx
  have hlt : ¬ (0.0 : Float) > 1e-15 := by decide
  have hcounts : x.abs > 1e-15 := of_decide_eq_true h
  rw [abs_of_zero hx] at hcounts
  exact hlt hcounts

/-- **Adding to zero changes no float that counts.** -/
theorem zero_add_of_significant (h : (Number.real x).isSignificant = true) : 0.0 + x = x :=
  zero_add_of_place? (place?_of_significant h)

/-- Adding to zero makes no float count. -/
theorem significant_zero_add (x : Float) :
    (Number.real (0.0 + x)).isSignificant = (Number.real x).isSignificant := by
  by_cases hx : place? x = some (.ofRat 0)
  · have hadd : place? (0.0 + x) = some (.ofRat 0) := (place?_zero_add x).trans hx
    show decide ((0.0 + x).abs > 1e-15) = decide (x.abs > 1e-15)
    rw [abs_of_zero hx, abs_of_zero hadd]
  · rw [zero_add_of_place? hx]

theorem ne_zero_of_significant (h : (Number.real x).isSignificant = true) : (x != 0.0) = true := by
  rw [bne, Bool.not_eq_true', Bool.eq_false_iff]
  intro hx
  obtain ⟨p, hp, hzero⟩ := beq_iff.1 hx
  rw [place?_zero] at hzero
  exact place?_of_significant h (hp.trans hzero.symm)

/-- **A factor that counts is read as a float that counts.** -/
theorem significant_of_toFloat {n : Number} (hn : n.isSignificant = true) (h : n.toFloat = .ok x) :
    (Number.real x).isSignificant = true := by
  cases n with
  | truth b =>
    obtain rfl : b = true := hn
    obtain rfl : 1.0 = x := Except.ok.inj h
    decide
  | integer k =>
    have hk : k ≠ 0 := by simpa [isSignificant] using hn
    have hx : nearestInt k = x := by
      unfold toFloat floatOfInt at h
      simp only [] at h
      split_ifs at h
      · exact Except.ok.inj h
    obtain ⟨p, hp, hone⟩ := one_le_nearestInt hk
    exact significant_of_one_le (hx ▸ hp) hone
  | real y =>
    obtain rfl : y = x := Except.ok.inj h
    exact hn

end Number

end Optimization
