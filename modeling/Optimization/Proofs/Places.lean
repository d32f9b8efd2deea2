import Mathlib
import Optimization.Decimal.Binary

/-!
# Places of floats

A float that is a number has a place among the rationals and the two infinities, and its
comparisons are those of its place. The words of finite floats are canonical: a mantissa has
53 bits unless the exponent is the least one, so that magnitudes are ordered by exponent first.

* `place?` : the place of a float; not-a-number has none;
* `beq_iff`, `lt_iff`, `le_iff`, `isNaN_iff`, `isFinite_iff` : what the comparisons of floats mean;
* `pack_unpack` : a word is determined by what it is taken apart into;
* `place?_zero_add` : zero plus a float lies where the float lies.
-/

namespace Optimization.Decimal
open Float.Model Float.Model.UnpackedFloat

/-- The rationals between two infinities. -/
abbrev Extended := WithBot (WithTop ℚ)

/-- A rational among the extended ones. -/
def Extended.ofRat (q : ℚ) : Extended := ((q : WithTop ℚ) : Extended)

/-- The place of a float among the rationals and the infinities; not-a-number has none. -/
def place? (x : Float) : Option Extended :=
  match parts x with
  | .notANumber => none
  | .infinite negative => some (if negative then ⊥ else ⊤)
  | .finite negative m e => some (.ofRat (scaled negative m e))

/-! ### Extended rationals -/

@[simp] theorem ofRat_lt_ofRat {p q : ℚ} : Extended.ofRat p < Extended.ofRat q ↔ p < q := by
  simp [Extended.ofRat]

@[simp] theorem ofRat_le_ofRat {p q : ℚ} : Extended.ofRat p ≤ Extended.ofRat q ↔ p ≤ q := by
  simp [Extended.ofRat]

@[simp] theorem ofRat_inj {p q : ℚ} : Extended.ofRat p = Extended.ofRat q ↔ p = q := by
  simp [Extended.ofRat]

@[simp] theorem ofRat_lt_top (q : ℚ) : Extended.ofRat q < ⊤ :=
  WithBot.coe_lt_coe.2 (WithTop.coe_lt_top q)

@[simp] theorem bot_lt_ofRat (q : ℚ) : ⊥ < Extended.ofRat q := WithBot.bot_lt_coe _

theorem cmp_ofRat (p q : ℚ) : cmp (Extended.ofRat p) (Extended.ofRat q) = cmp p q := by
  simp only [cmp, cmpUsing, ofRat_lt_ofRat]

/-! ### Words -/

theorem exponentBias_binary64 : Format.binary64.exponentBias = 1023 := rfl

/-- The mantissa of a normal float, with its leading bit. -/
theorem significand_toNat (b : BitVec Format.binary64.numBits) :
    (1#1 ++ unpackMantissa b).toNat = 2 ^ 52 + (unpackMantissa b).toNat := by
  have append {n : ℕ} (m : BitVec n) : (1#1 ++ m).toNat = 2 ^ n + m.toNat := by
    rw [BitVec.toNat_append, ← Nat.shiftLeft_add_eq_or_of_lt m.isLt]
    simp [Nat.shiftLeft_eq]
  exact append (unpackMantissa b)

/-- Only infinities and not-a-number have the greatest exponent. -/
theorem exponent_lt {v : BitVec 11} (h : v ≠ -1#11) : v.toNat < 2047 := by
  have hv := v.isLt
  have : v.toNat ≠ 2047 := fun e => h (BitVec.eq_of_toNat_eq (by simpa using e))
  omega

/-- Sign, exponent and mantissa make up the word that they were read from. -/
theorem packComponents_unpack (b : BitVec Format.binary64.numBits) :
    packComponents Format.binary64 (Sign.ofBitVec (unpackSign b)) (unpackExponent b)
      (unpackMantissa b) = b := by
  have hs : (Sign.ofBitVec (unpackSign b)).toBitVec = unpackSign b := by
    unfold Sign.ofBitVec
    rcases BitVec.eq_zero_or_eq_one (unpackSign b) with h | h <;> rw [h] <;> rfl
  unfold packComponents
  rw [hs]
  apply BitVec.eq_of_getLsbD_eq
  intro i hi
  simp only [BitVec.getLsbD_append, unpackSign, unpackExponent, unpackMantissa, BitVec.getLsbD_cast,
    BitVec.getLsbD_extractLsb]
  simp only [Format.binary64] at *
  split_ifs <;> simp <;> grind

/-- Packing what a word was taken apart into gives the word back. -/
theorem pack_unpack {b : BitVec Format.binary64.numBits} (hb : Format.binary64.Valid b) :
    UnpackedFloat.pack Format.binary64 (UnpackedFloat.unpack Format.binary64 b) = b := by
  have hlt : (unpackMantissa b).toNat < 2 ^ 52 := (unpackMantissa b).isLt
  have hw := packComponents_unpack b
  unfold UnpackedFloat.unpack
  simp only []
  split_ifs with h1 h2 h3 h4
  · rw [h1, h2] at hw
    exact hw
  · exact (hb.eq_packedNaN h1 h2).symm
  · rw [h3, h4] at hw
    exact hw
  · -- a subnormal: its exponent field is zero and its mantissa has at most 52 bits
    have hz : (unpackExponent b).toNat = 0 := by rw [h3]; rfl
    have hm : (unpackMantissa b).toNat ≠ 0 := fun e => h4 (BitVec.eq_of_toNat_eq (by simpa using e))
    have hlog : (unpackMantissa b).toNat.log2 < 52 := (Nat.log2_lt hm).2 hlt
    unfold UnpackedFloat.pack
    simp only [exponentBias_binary64, hz]
    rw [if_neg (by decide), if_neg (by simp only [Format.mantissaBits]; omega), ← h3,
      BitVec.ofNat_toNat, BitVec.setWidth_eq]
    exact hw
  · -- a normal float: packing drops the leading bit again
    have hexp := exponent_lt h1
    have hlog : (1#1 ++ unpackMantissa b).toNat.log2 = 52 := by
      rw [significand_toNat, Nat.log2_eq_iff (by positivity)]
      exact ⟨by omega, by omega⟩
    have hbiased : (((unpackExponent b).toNat : ℤ) - ((1023 : ℕ) + (52 : ℕ)) + (1023 : ℕ)
        + (52 : ℕ)).toNat = (unpackExponent b).toNat := by omega
    unfold UnpackedFloat.pack
    simp only [exponentBias_binary64, hlog, hbiased]
    rw [if_neg (by show ¬ 2 ^ 11 ≤ _; omega), if_pos (by rfl), BitVec.ofNat_toNat,
      BitVec.setWidth_eq]
    convert hw using 2
    apply BitVec.eq_of_toNat_eq
    rw [significand_toNat, BitVec.toNat_ofNat]
    show (2 ^ 52 + _) % 2 ^ 52 = _
    omega

theorem ofModel_pack_unpack (x : Float) : Float.ofModel (.pack x.toModel.unpack) = x := by
  obtain ⟨⟨bits, valid⟩⟩ := x
  have : UInt64.ofBitVec (UnpackedFloat.pack Format.binary64
      (UnpackedFloat.unpack Format.binary64 bits.toBitVec)) = bits := by
    rw [pack_unpack valid]
  simp only [Float.Model.pack, Float.Model.unpack, this]

/-- The mantissa and the exponent of a finite float: the mantissa has at most 53 bits, and fewer
only with the least exponent. -/
structure Canonical (m : ℕ) (e : ℤ) : Prop where
  mantissa_lt : m < 2 ^ 53
  exponent_le : e ≤ 971
  least : -1074 ≤ e
  full : 2 ^ 52 ≤ m ∨ e = -1074

theorem canonical_of_unpack {b : BitVec Format.binary64.numBits} {s : Sign} {m : ℕ} {e : ℤ}
    {hm : 0 < m} (h : UnpackedFloat.unpack Format.binary64 b = .finite s m e hm) :
    Canonical m e := by
  have hlt : (unpackMantissa b).toNat < 2 ^ 52 := (unpackMantissa b).isLt
  simp only [UnpackedFloat.unpack, exponentBias_binary64] at h
  split_ifs at h with h1 h2 h3 h4
  · have hz : (unpackExponent b).toNat = 0 := by rw [h3]; rfl
    injection h with _ hm he
    rw [hz] at he
    exact ⟨by omega, by omega, by omega, Or.inr (by omega)⟩
  · have hne : (unpackExponent b).toNat ≠ 0 :=
      fun e => h3 (BitVec.eq_of_toNat_eq (by simpa using e))
    have hexp := exponent_lt h1
    injection h with _ hm he
    rw [significand_toNat] at hm
    exact ⟨by omega, by omega, by omega, Or.inl (by omega)⟩

/-! ### Magnitudes -/

/-- A greater exponent makes a greater magnitude. -/
theorem magnitude_lt {m₁ m₂ : ℕ} {e₁ e₂ : ℤ} (h₁ : Canonical m₁ e₁) (h₂ : Canonical m₂ e₂)
    (h : e₁ < e₂) : (m₁ : ℚ) * 2 ^ e₁ < m₂ * 2 ^ e₂ := by
  have hm₁ : (m₁ : ℚ) < 2 ^ 53 := by exact_mod_cast h₁.mantissa_lt
  have hm₂ : (2 : ℚ) ^ 52 ≤ m₂ := by
    have := h₁.least
    exact_mod_cast h₂.full.resolve_right (by omega)
  have he : (2 : ℚ) ^ (e₁ + 1) ≤ 2 ^ e₂ := zpow_le_zpow_right₀ (by norm_num) (by omega)
  calc (m₁ : ℚ) * 2 ^ e₁ < 2 ^ 53 * 2 ^ e₁ := by gcongr
    _ = 2 ^ 52 * 2 ^ (e₁ + 1) := by rw [zpow_add₀ two_ne_zero]; ring
    _ ≤ m₂ * 2 ^ e₂ := by gcongr

/-- Magnitudes are compared by exponent first and by mantissa then. -/
theorem cmp_magnitude {m₁ m₂ : ℕ} {e₁ e₂ : ℤ} (h₁ : Canonical m₁ e₁) (h₂ : Canonical m₂ e₂) :
    (compare e₁ e₂).then (compare m₁ m₂) = cmp ((m₁ : ℚ) * 2 ^ e₁) (m₂ * 2 ^ e₂) := by
  rcases lt_trichotomy e₁ e₂ with h | rfl | h
  · rw [compare_lt_iff_lt.2 h, (cmp_eq_lt_iff _ _).2 (magnitude_lt h₁ h₂ h)]
    rfl
  · have hp : (0 : ℚ) < 2 ^ e₁ := by positivity
    rw [compare_eq_iff_eq.2 rfl]
    rcases lt_trichotomy m₁ m₂ with hm | rfl | hm
    · rw [compare_lt_iff_lt.2 hm, (cmp_eq_lt_iff _ _).2 (by gcongr)]
      rfl
    · rw [compare_eq_iff_eq.2 rfl, (cmp_eq_eq_iff _ _).2 rfl]
      rfl
    · rw [compare_gt_iff_gt.2 hm, (cmp_eq_gt_iff _ _).2 (by gcongr)]
      rfl
  · rw [compare_gt_iff_gt.2 h, (cmp_eq_gt_iff _ _).2 (magnitude_lt h₂ h₁ h)]
    rfl

/-! ### Comparison -/

/-- The place of an unpacked float. -/
def placeUnpacked? : UnpackedFloat → Option Extended
  | .notANumber => none
  | .infinity .negative => some ⊥
  | .infinity .positive => some ⊤
  | .zero _ => some (.ofRat 0)
  | .finite .negative m e _ => some (.ofRat (-(m * 2 ^ e)))
  | .finite .positive m e _ => some (.ofRat (m * 2 ^ e))

theorem place?_eq (x : Float) : place? x = placeUnpacked? x.toModel.unpack := by
  unfold place? parts
  cases x.toModel.unpack with
  | notANumber => rfl
  | infinity s => cases s <;> rfl
  | zero s => cases s <;> simp [placeUnpacked?, scaled]
  | finite s m e h =>
    have hpositive : (Sign.positive == Sign.negative) = false := rfl
    cases s <;> simp [placeUnpacked?, scaled, hpositive]

/-- An unpacked float whose mantissa and exponent are those of a float. -/
def IsCanonical : UnpackedFloat → Prop
  | .finite _ m e _ => Canonical m e
  | _ => True

theorem isCanonical_unpack (x : Float) : IsCanonical x.toModel.unpack := by
  cases h : x.toModel.unpack with
  | finite s m e hm => exact canonical_of_unpack h
  | _ => trivial

section Compare

variable {b : UnpackedFloat} {p q : Extended}

theorem compare_infinity (s : Sign) (hp : placeUnpacked? (.infinity s) = some p)
    (hq : placeUnpacked? b = some q) :
    (UnpackedFloat.infinity s).compare b = some (cmp p q) := by
  cases b with
  | notANumber => simp [placeUnpacked?] at hq
  | infinity t => cases s <;> cases t <;> cases hp <;> cases hq <;> simp [cmp, cmpUsing] <;> rfl
  | zero t => cases s <;> cases hp <;> cases hq <;> simp [UnpackedFloat.compare, cmp, cmpUsing]
  | finite t m e h =>
    cases s <;> cases t <;> cases hp <;> cases hq <;> simp [UnpackedFloat.compare, cmp, cmpUsing]

theorem compare_zero (s : Sign) (hp : placeUnpacked? (.zero s) = some p)
    (hq : placeUnpacked? b = some q) : (UnpackedFloat.zero s).compare b = some (cmp p q) := by
  cases hp
  cases b with
  | notANumber => simp [placeUnpacked?] at hq
  | infinity t => cases t <;> cases hq <;> simp [UnpackedFloat.compare, cmp, cmpUsing]
  | zero t => cases hq; simp [UnpackedFloat.compare]
  | finite t m e h =>
    have hpos : (0 : ℚ) < m * 2 ^ e := by positivity
    cases t <;> cases hq <;> simp [UnpackedFloat.compare, cmp, cmpUsing, hpos, hpos.not_gt]

theorem compare_finite (s : Sign) {m : ℕ} {e : ℤ} {hm : 0 < m} (hc : Canonical m e)
    (hb : IsCanonical b) (hp : placeUnpacked? (.finite s m e hm) = some p)
    (hq : placeUnpacked? b = some q) :
    (UnpackedFloat.finite s m e hm).compare b = some (cmp p q) := by
  have hpos : (0 : ℚ) < m * 2 ^ e := by positivity
  cases b with
  | notANumber => simp [placeUnpacked?] at hq
  | infinity t =>
    cases s <;> cases t <;> cases hp <;> cases hq <;> simp [UnpackedFloat.compare, cmp, cmpUsing]
  | zero t =>
    cases s <;> cases hp <;> cases hq <;>
      simp [UnpackedFloat.compare, cmp, cmpUsing, hpos, hpos.not_gt]
  | finite t n f hn =>
    have hpos' : (0 : ℚ) < n * 2 ^ f := by positivity
    cases s <;> cases t <;> cases hp <;> cases hq <;> rw [cmp_ofRat]
    · rw [UnpackedFloat.compare, cmp_magnitude hc hb, cmp_swap]
      simp [cmp, cmpUsing]
    · rw [(cmp_eq_lt_iff _ _).2 (by linarith)]
      rfl
    · rw [(cmp_eq_gt_iff _ _).2 (by linarith)]
      rfl
    · rw [UnpackedFloat.compare, cmp_magnitude hc hb]

end Compare

section Float

variable {x y : Float}

/-- Comparison of floats is comparison of their places. -/
theorem compare_unpack {p q : Extended} (hp : place? x = some p) (hq : place? y = some q) :
    x.toModel.unpack.compare y.toModel.unpack = some (cmp p q) := by
  rw [place?_eq] at hp hq
  have hx := isCanonical_unpack x
  have hy := isCanonical_unpack y
  cases h : x.toModel.unpack with
  | notANumber => simp [h, placeUnpacked?] at hp
  | infinity s => exact compare_infinity s (h ▸ hp) hq
  | zero s => exact compare_zero s (h ▸ hp) hq
  | finite s m e hm =>
    rw [h] at hp hx
    exact compare_finite s hx hy hp hq

/-- Only not-a-number has no place. -/
theorem eq_notANumber_of_place? {a : UnpackedFloat} (h : placeUnpacked? a = none) :
    a = .notANumber := by
  cases a with
  | notANumber => rfl
  | zero s => cases h
  | infinity s => cases s <;> cases h
  | finite s m e hm => cases s <;> cases h

theorem compare_notANumber (a : UnpackedFloat) : a.compare .notANumber = none := by
  cases a with
  | infinity s => cases s <;> rfl
  | finite s m e hm => cases s <;> rfl
  | _ => rfl

/-- What is not a number is neither below nor above nor equal. -/
theorem compare_unpack_eq_none (h : place? x = none ∨ place? y = none) :
    x.toModel.unpack.compare y.toModel.unpack = none := by
  rw [place?_eq, place?_eq] at h
  rcases h with h | h
  · rw [eq_notANumber_of_place? h]
    rfl
  · rw [eq_notANumber_of_place? h, compare_notANumber]

/-- An order relation between floats is one between their places. -/
theorem compare_unpack_eq_some_iff {o : Ordering} :
    x.toModel.unpack.compare y.toModel.unpack = some o ↔
      ∃ p q, place? x = some p ∧ place? y = some q ∧ cmp p q = o := by
  cases hp : place? x with
  | none => simp [compare_unpack_eq_none (.inl hp)]
  | some p =>
    cases hq : place? y with
    | none => simp [compare_unpack_eq_none (.inr hq)]
    | some q => simp [compare_unpack hp hq]

/-- **Floats are equal when they lie at the same place.** -/
theorem beq_iff : (x == y) = true ↔ ∃ p, place? x = some p ∧ place? y = some p := by
  show (x.toModel.unpack.compare y.toModel.unpack == some .eq) = true ↔ _
  simp only [beq_iff_eq, compare_unpack_eq_some_iff, cmp_eq_eq_iff]
  constructor
  · rintro ⟨p, q, hx, hy, rfl⟩
    exact ⟨p, hx, hy⟩
  · rintro ⟨p, hx, hy⟩
    exact ⟨p, p, hx, hy, rfl⟩

theorem beq_eq_decide {p q : Extended} (hp : place? x = some p) (hq : place? y = some q) :
    (x == y) = decide (p = q) := by
  rw [Bool.eq_iff_iff, beq_iff, decide_eq_true_eq]
  constructor
  · rintro ⟨r, hr, hr'⟩
    rw [hp, Option.some.injEq] at hr
    rw [hq, Option.some.injEq] at hr'
    rw [hr, hr']
  · rintro rfl
    exact ⟨p, hp, hq⟩

/-- **The order of floats is the order of their places.** -/
theorem lt_iff : x < y ↔ ∃ p q, place? x = some p ∧ place? y = some q ∧ p < q := by
  show decide ((x.toModel.unpack.compare y.toModel.unpack == some .lt) = true) = true ↔ _
  simp only [decide_eq_true_eq, beq_iff_eq, compare_unpack_eq_some_iff, cmp_eq_lt_iff]

/-- Floats are in order when their places are. -/
theorem le_iff : x ≤ y ↔ ∃ p q, place? x = some p ∧ place? y = some q ∧ p ≤ q := by
  show decide ((x.toModel.unpack.compare y.toModel.unpack).any (·.isLE) = true) = true ↔ _
  simp only [decide_eq_true_eq, Option.any_eq_true, compare_unpack_eq_some_iff]
  constructor
  · rintro ⟨o, ⟨p, q, hp, hq, rfl⟩, hle⟩
    refine ⟨p, q, hp, hq, not_lt.1 fun hlt => ?_⟩
    rw [(cmp_eq_gt_iff p q).2 hlt] at hle
    cases hle
  · rintro ⟨p, q, hp, hq, hle⟩
    refine ⟨cmp p q, ⟨p, q, hp, hq, rfl⟩, ?_⟩
    rcases hle.lt_or_eq with hlt | rfl
    · rw [(cmp_eq_lt_iff p q).2 hlt]
      rfl
    · rw [(cmp_eq_eq_iff p p).2 rfl]
      rfl

/-- Floats in order are not in the reverse strict order. -/
theorem not_gt_of_le (h : x ≤ y) : ¬x > y := by
  obtain ⟨p, q, hp, hq, hle⟩ := le_iff.1 h
  intro hgt
  obtain ⟨q', p', hq', hp', hlt⟩ := lt_iff.1 hgt
  rw [hp, Option.some.injEq] at hp'
  rw [hq, Option.some.injEq] at hq'
  subst hp' hq'
  exact not_lt.2 hle hlt

theorem isNaN_iff : x.isNaN = true ↔ place? x = none := by
  show x.toModel.unpack.isNaN = true ↔ _
  rw [place?_eq]
  cases x.toModel.unpack with
  | infinity s => cases s <;> simp [UnpackedFloat.isNaN, placeUnpacked?]
  | finite s m e h => cases s <;> simp [UnpackedFloat.isNaN, placeUnpacked?]
  | _ => simp [UnpackedFloat.isNaN, placeUnpacked?]

/-- A float is finite when its place is none of the infinities. -/
theorem isFinite_iff {p : Extended} (h : place? x = some p) :
    x.isFinite = true ↔ p ≠ ⊥ ∧ p ≠ ⊤ := by
  show x.toModel.unpack.isFinite = true ↔ _
  rw [place?_eq] at h
  cases hx : x.toModel.unpack with
  | notANumber =>
    rw [hx] at h
    cases h
  | infinity s =>
    rw [hx] at h
    cases s <;> cases h <;> simp [UnpackedFloat.isFinite]
  | zero s =>
    rw [hx] at h
    cases h
    exact iff_of_true rfl ⟨(bot_lt_ofRat 0).ne', (ofRat_lt_top 0).ne⟩
  | finite s m e hm =>
    rw [hx] at h
    cases s <;> cases h <;> exact iff_of_true rfl ⟨(bot_lt_ofRat _).ne', (ofRat_lt_top _).ne⟩

/-- The rational value of a float is its place between the infinities. -/
theorem exactValue?_eq_some_iff {q : ℚ} : exactValue? x = some q ↔ place? x = some (.ofRat q) := by
  unfold exactValue? place?
  cases parts x with
  | notANumber => simp
  | infinite negative => cases negative <;> simp [Extended.ofRat]
  | finite negative m e => simp

theorem exactValue?_congr (h : place? x = place? y) : exactValue? x = exactValue? y := by
  ext q
  rw [exactValue?_eq_some_iff, exactValue?_eq_some_iff, h]

end Float

@[simp] theorem place?_infinity : place? infinity = some ⊤ := by rfl

@[simp] theorem place?_negativeInfinity : place? negativeInfinity = some ⊥ := by rfl

@[simp] theorem place?_zero : place? 0.0 = some (.ofRat 0) := by
  rw [place?_eq]
  rfl

@[simp] theorem place?_one : place? 1.0 = some (.ofRat 1) := by
  have h : (1.0 : Float).toModel.unpack = .finite .positive (2 ^ 52) (-52) (by decide) := by rfl
  rw [place?_eq, h, placeUnpacked?]
  norm_num

/-- Adding to zero keeps the place. -/
@[simp] theorem place?_zero_add (x : Float) : place? (0.0 + x) = place? x := by
  have hadd : 0.0 + x = Float.ofModel
      (.pack (UnpackedFloat.add Format.binary64 (.zero .positive) x.toModel.unpack)) := rfl
  have hx := ofModel_pack_unpack x
  rw [hadd]
  cases h : x.toModel.unpack with
  | zero s =>
    rw [place?_eq, place?_eq, h]
    cases s <;> rfl
  | _ =>
    rw [h] at hx
    exact congrArg place? hx

end Optimization.Decimal
