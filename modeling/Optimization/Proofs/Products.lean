import Optimization.Proofs.Nearest
import Optimization.Proofs.Rounding

/-!
# Products of floats

The product of two finite floats is the rational product, rounded to the nearest float. The float
model drops the places of a mantissa one by one, and keeps in two bits what it needs to round in the
end; what is beyond the greatest float becomes an infinity.

* `Represents` : what an extended mantissa stands for, `represents_shiftRight` : dropping places;
* `unpack_pack_finite`, `unpack_pack_overflow` : words of canonical floats and of greater ones;
* `place_roundWithAccuracy` : where a rounded float lies;
* `place?_mul` : where a product lies.
-/

namespace Optimization.Decimal
open Float.Model Float.Model.UnpackedFloat

/-! ### Dropping places -/

/-- An extended mantissa is the integer part of a rational, and its bits say on which side of the
middle the fraction lies. -/
structure Represents (em : ExtendedMantissa) (q : ℚ) : Prop where
  mantissa : (em.mantissa : ℤ) = ⌊q⌋
  roundBit : em.roundBit = true ↔ 1 / 2 ≤ Int.fract q
  stickyBit : em.stickyBit = true ↔ Int.fract q ≠ 0 ∧ Int.fract q ≠ 1 / 2

theorem represents_natCast (m : ℕ) : Represents ⟨m, false, false⟩ m := by
  constructor
  · exact (Int.floor_natCast m).symm
  · rw [Int.fract_natCast]
    norm_num
  · rw [Int.fract_natCast]
    norm_num

variable {em : ExtendedMantissa} {q : ℚ}

/-- Half a rational has half the integer part, and the place that was dropped comes before its
fraction. -/
theorem floor_half (q : ℚ) :
    ⌊q / 2⌋ = ⌊q⌋ / 2 ∧ Int.fract (q / 2) = ((⌊q⌋ % 2 : ℤ) + Int.fract q) / 2 := by
  have hsplit : q / 2 = (⌊q⌋ / 2 : ℤ) + ((⌊q⌋ % 2 : ℤ) + Int.fract q) / 2 := by
    have hdiv : ((2 * (⌊q⌋ / 2) + ⌊q⌋ % 2 : ℤ) : ℚ) = ⌊q⌋ := by
      rw [Int.mul_ediv_add_emod]
    push_cast at hdiv
    have hq := Int.floor_add_fract q
    linarith
  have hbit : 0 ≤ ⌊q⌋ % 2 ∧ ⌊q⌋ % 2 ≤ 1 := by omega
  have hlow : (0 : ℚ) ≤ (⌊q⌋ % 2 : ℤ) := by exact_mod_cast hbit.1
  have hhigh : ((⌊q⌋ % 2 : ℤ) : ℚ) ≤ 1 := by exact_mod_cast hbit.2
  have hfract := Int.fract_nonneg q
  have hfract' := Int.fract_lt_one q
  have hfloor : ⌊q / 2⌋ = ⌊q⌋ / 2 := by
    rw [Int.floor_eq_iff, hsplit]
    constructor <;> linarith
  refine ⟨hfloor, ?_⟩
  rw [Int.fract, hfloor]
  linarith

/-- The last place of the mantissa becomes the first bit, and the other bit notes what lies behind
it. -/
theorem Represents.shiftRightOne (h : Represents em q) : Represents em.shiftRightOne (q / 2) := by
  obtain ⟨hfloor, hfract⟩ := floor_half q
  have hlow := Int.fract_nonneg q
  have hhigh := Int.fract_lt_one q
  have hmod : (em.mantissa % 2 : ℕ) = ⌊q⌋ % 2 := by
    rw [← h.mantissa]
    norm_cast
  have hbit : ⌊q⌋ % 2 = 0 ∨ ⌊q⌋ % 2 = 1 := by omega
  have hrest : (em.roundBit || em.stickyBit) = true ↔ Int.fract q ≠ 0 := by
    rw [Bool.or_eq_true, h.roundBit, h.stickyBit]
    constructor
    · rintro (hround | hsticky)
      · linarith
      · exact hsticky.1
    · intro hne
      by_cases hhalf : Int.fract q = 1 / 2
      · exact .inl hhalf.ge
      · exact .inr ⟨hne, hhalf⟩
  refine ⟨?_, ?_, ?_⟩
  · rw [hfloor, ← h.mantissa]
    exact Int.natCast_ediv em.mantissa 2
  · rw [hfract]
    show (em.mantissa % 2 != 0) = true ↔ _
    rw [bne_iff_ne]
    rcases hbit with h0 | h1
    · refine iff_of_false (by omega) ?_
      rw [h0]
      push_cast
      linarith
    · refine iff_of_true (by omega) ?_
      rw [h1]
      push_cast
      linarith
  · rw [hfract]
    refine hrest.trans ?_
    rcases hbit with h0 | h1
    · rw [h0]
      push_cast
      constructor
      · exact fun hne => ⟨fun he => hne (by linarith), fun he => by linarith⟩
      · exact fun hne he => hne.1 (by linarith)
    · rw [h1]
      push_cast
      constructor
      · exact fun hne => ⟨fun he => by linarith, fun he => hne (by linarith)⟩
      · exact fun hne he => hne.2 (by linarith)

theorem represents_shiftRight (m k : ℕ) :
    Represents ((⟨m, false, false⟩ : ExtendedMantissa) >>> k) (m / 2 ^ k) := by
  induction k with
  | zero =>
    rw [pow_zero, div_one]
    exact represents_natCast m
  | succ k ih =>
    have hstep := ih.shiftRightOne
    rw [div_div, ← pow_succ] at hstep
    exact hstep

/-- The bits are what rounding to the nearest integer needs. -/
theorem Represents.roundedMantissa (h : Represents em q) :
    (em.roundedMantissa : ℤ) = roundEven q := by
  obtain ⟨m, r, s⟩ := em
  obtain ⟨hm, hr, hs⟩ := h
  simp only at hm hr hs
  unfold roundEven
  cases r with
  | false =>
    have hlt : Int.fract q < 1 / 2 := by
      by_contra hge
      exact Bool.false_ne_true (hr.2 (not_lt.1 hge))
    rw [if_pos hlt, ← hm]
    cases s <;> rfl
  | true =>
    have hge : 1 / 2 ≤ Int.fract q := hr.1 rfl
    rw [if_neg (not_lt.2 hge)]
    cases s with
    | false =>
      have heq : Int.fract q = 1 / 2 := by
        by_contra hne
        exact Bool.false_ne_true (hs.2 ⟨by linarith, hne⟩)
      rw [if_neg heq.not_gt, ← hm]
      show ((m + m % 2 : ℕ) : ℤ) = _
      split_ifs <;> omega
    | true =>
      have hne : Int.fract q ≠ 1 / 2 := (hs.1 rfl).2
      rw [if_pos (lt_of_le_of_ne hge hne.symm), ← hm]
      rfl

/-! ### The exponent of a rounded mantissa -/

/-- A positive magnitude with its leading place. -/
theorem log_magnitude {m : ℕ} (hm : 0 < m) (e : ℤ) :
    Int.log 2 ((m : ℚ) * 2 ^ e) = m.log2 + e := by
  have hpos : (0 : ℚ) < m * 2 ^ e := by positivity
  have hlow : (2 : ℚ) ^ m.log2 ≤ m := by exact_mod_cast Nat.log2_self_le hm.ne'
  have hhigh : (m : ℚ) < 2 ^ (m.log2 + 1) := by exact_mod_cast Nat.lt_log2_self
  apply le_antisymm
  · rw [← Int.lt_add_one_iff, ← Int.lt_zpow_iff_log_lt (by norm_num) hpos]
    push_cast
    rw [show (m.log2 : ℤ) + e + 1 = ((m.log2 + 1 : ℕ) : ℤ) + e by push_cast; ring,
      zpow_add₀ two_ne_zero, zpow_natCast]
    gcongr
  · rw [← Int.zpow_le_iff_le_log (by norm_num) hpos]
    push_cast
    rw [zpow_add₀ two_ne_zero, zpow_natCast]
    gcongr

/-- The exponent that a mantissa is shifted to is that of the grid. -/
theorem targetExponent_eq {m : ℕ} (hm : 0 < m) (e : ℤ) :
    Format.binary64.targetExponent (totalExponent m e) = grid (m * 2 ^ e) := by
  rw [grid, log_magnitude hm]
  show max ((m.log2 : ℤ) + 1 + e - 53) (-1074) = _
  congr 1
  omega

/-- A mantissa that is shifted is rounded to the grid. -/
theorem shift_to_grid {m : ℕ} {e : ℤ} (hm : 0 < m) (he : e ≤ grid (m * 2 ^ e)) :
    (shiftToTargetExponent Format.binary64 m e .exact).2 = grid (m * 2 ^ e) ∧
    (((shiftToTargetExponent Format.binary64 m e .exact).1.roundedMantissa : ℤ) : ℚ) *
      2 ^ grid (m * 2 ^ e) = rounded (m * 2 ^ e) := by
  unfold shiftToTargetExponent shiftToExponent
  rw [targetExponent_eq hm]
  simp only []
  set g := grid (m * 2 ^ e) with hg
  have hk : e + ((g - e).toNat : ℤ) = g := by omega
  refine ⟨hk, ?_⟩
  have hrep := represents_shiftRight m (g - e).toNat
  have hpow : (2 : ℚ) ^ g = 2 ^ e * 2 ^ (g - e).toNat := by
    rw [← zpow_natCast, ← zpow_add₀ two_ne_zero, hk]
  have hquotient : (m : ℚ) / 2 ^ (g - e).toNat = m * 2 ^ e / 2 ^ g := by
    rw [hpow]
    field_simp
  rw [hquotient] at hrep
  rw [rounded, ← hg, ← hrep.roundedMantissa]
  rfl

/-- A mantissa of 53 bits stays as it is. -/
theorem shift_small {m : ℕ} {e : ℤ} (hm : m < 2 ^ 53) (he : -1074 ≤ e) :
    shiftToTargetExponent Format.binary64 m e .exact = (⟨m, false, false⟩, e) := by
  have hlog : m.log2 ≤ 52 := by
    by_cases h : m = 0
    · simp [h]
    · have := (Nat.log2_lt h).2 hm
      omega
  have htarget : Format.binary64.targetExponent (totalExponent m e) ≤ e := by
    show max ((m.log2 : ℤ) + 1 + e - 53) (-1074) ≤ e
    omega
  have hnone : (Format.binary64.targetExponent (totalExponent m e) - e).toNat = 0 := by omega
  unfold shiftToTargetExponent shiftToExponent
  simp only [hnone]
  exact Prod.ext rfl (add_zero e)

/-- A mantissa that was rounded up to 54 bits loses the last one. -/
theorem shift_carry {e : ℤ} (he : -1074 ≤ e) :
    shiftToTargetExponent Format.binary64 (2 ^ 53) e .exact = (⟨2 ^ 52, false, false⟩, e + 1) := by
  have hlog : (2 ^ 53).log2 = 53 := Nat.log2_two_pow
  have htarget : Format.binary64.targetExponent (totalExponent (2 ^ 53) e) - e = 1 := by
    show max (((2 ^ 53).log2 : ℤ) + 1 + e - 53) (-1074) - e = 1
    rw [hlog]
    omega
  unfold shiftToTargetExponent shiftToExponent
  simp only [htarget]
  rfl

/-! ### Words -/

section Words

variable (s : Sign) {m : ℕ} {e : ℤ} (hm : 0 < m)

theorem pack_overflow (he : 972 ≤ e) :
    UnpackedFloat.pack Format.binary64 (.finite s m e hm) =
      packComponents Format.binary64 s (-1#11) 0#52 := by
  have hbiased : 2 ^ 11 ≤ (e + (1023 : ℕ) + (52 : ℕ)).toNat + 1 := by omega
  exact if_pos hbiased

theorem pack_normal (hc : Canonical m e) (hfull : 2 ^ 52 ≤ m) :
    UnpackedFloat.pack Format.binary64 (.finite s m e hm) =
      packComponents Format.binary64 s (BitVec.ofNat 11 (e + 1075).toNat) (BitVec.ofNat 52 m) := by
  have hexp := hc.exponent_le
  have hbiased : ¬2 ^ 11 ≤ (e + (1023 : ℕ) + (52 : ℕ)).toNat + 1 := by omega
  have hlog : m.log2 + 1 = 53 := by
    rw [(Nat.log2_eq_iff hm.ne').2 ⟨hfull, hc.mantissa_lt⟩]
  have hexponent : e + (1023 : ℕ) + (52 : ℕ) = e + 1075 := by omega
  refine ((if_neg hbiased).trans (if_pos hlog)).trans ?_
  rw [← hexponent]
  rfl

theorem pack_subnormal (he : e ≤ 971) (hsmall : m < 2 ^ 52) :
    UnpackedFloat.pack Format.binary64 (.finite s m e hm) =
      packComponents Format.binary64 s 0#11 (BitVec.ofNat 52 m) := by
  have hbiased : ¬2 ^ 11 ≤ (e + (1023 : ℕ) + (52 : ℕ)).toNat + 1 := by omega
  have hlog : ¬m.log2 + 1 = 53 := by
    have := (Nat.log2_lt hm.ne').2 hsmall
    omega
  exact (if_neg hbiased).trans (if_neg hlog)

/-- A canonical float is taken apart into what it was packed from. -/
theorem unpack_pack_finite (hc : Canonical m e) :
    unpack Format.binary64 (UnpackedFloat.pack Format.binary64 (.finite s m e hm)) =
      .finite s m e hm := by
  have hlt := hc.mantissa_lt
  have hexp := hc.exponent_le
  have hleast := hc.least
  by_cases hfull : 2 ^ 52 ≤ m
  · -- packing drops the leading place, and taking apart puts it back
    have hb : (BitVec.ofNat 11 (e + 1075).toNat).toNat = (e + 1075).toNat := by
      rw [BitVec.toNat_ofNat]
      omega
    have hf : (1#1 ++ BitVec.ofNat 52 m).toNat = m := by
      rw [BitVec.toNat_append, BitVec.toNat_ofNat, ← Nat.shiftLeft_add_eq_or_of_lt (by omega)]
      show 1 <<< 52 + m % 2 ^ 52 = m
      omega
    rw [pack_normal s hm hc hfull]
    unfold UnpackedFloat.unpack
    simp only [exponent_packComponents, mantissa_packComponents, sign_packComponents]
    rw [if_neg, if_neg]
    · congr 1
      rw [hb]
      show ((e + 1075).toNat : ℤ) - ((1023 : ℕ) + (52 : ℕ)) = e
      omega
    · intro h
      rw [h] at hb
      have : 0 = (e + 1075).toNat := hb
      omega
    · intro h
      rw [h] at hb
      have : 2047 = (e + 1075).toNat := hb
      omega
  · obtain rfl := hc.full.resolve_left hfull
    have hf : (BitVec.ofNat 52 m).toNat = m := by
      rw [BitVec.toNat_ofNat]
      omega
    have hne : BitVec.ofNat 52 m ≠ 0#52 := by
      intro h
      rw [h] at hf
      exact hm.ne hf
    rw [pack_subnormal s hm hexp (by omega)]
    unfold UnpackedFloat.unpack
    simp only [exponent_packComponents, mantissa_packComponents, sign_packComponents]
    rw [if_neg (by decide), if_pos trivial, dif_neg hne]
    congr 1

/-- A float with a greater exponent is packed as an infinity. -/
theorem unpack_pack_overflow (he : 972 ≤ e) :
    unpack Format.binary64 (UnpackedFloat.pack Format.binary64 (.finite s m e hm)) =
      .infinity s := by
  rw [pack_overflow s hm he]
  unfold UnpackedFloat.unpack
  simp only [exponent_packComponents, mantissa_packComponents, sign_packComponents]
  rw [if_pos trivial, if_pos trivial]

end Words

/-! ### Places of rounded floats -/

/-- A magnitude with a sign. -/
def withSign : Sign → ℚ → ℚ
  | .negative, a => -a
  | .positive, a => a

/-- The infinity of a sign. -/
def infinityOf : Sign → Extended
  | .negative => ⊥
  | .positive => ⊤

/-- The place of a magnitude with a sign, an infinity beyond the greatest float. -/
def placeOf (s : Sign) (a : ℚ) : Extended :=
  if a < 2 ^ (1024 : ℤ) then .ofRat (withSign s a) else infinityOf s

/-- The place of the float nearest to a rational. -/
def nearestPlace (v : ℚ) : Extended :=
  placeOf (if v < 0 then .negative else .positive) (rounded |v|)

@[simp] theorem rounded_zero : rounded 0 = 0 := by
  have hzero : roundEven 0 = 0 := by exact_mod_cast roundEven_intCast 0
  rw [rounded, zero_div, hzero]
  simp

section Places

variable (s : Sign) {m : ℕ} {e : ℤ}

/-- A canonical float lies below the greatest magnitude if its exponent fits. -/
theorem canonical_lt (hlt : m < 2 ^ 53) (he : e ≤ 971) : (m : ℚ) * 2 ^ e < 2 ^ (1024 : ℤ) := by
  have hm : (m : ℚ) < 2 ^ (53 : ℤ) := by exact_mod_cast hlt
  calc (m : ℚ) * 2 ^ e < 2 ^ (53 : ℤ) * 2 ^ e := by gcongr
    _ = 2 ^ (53 + e) := (zpow_add₀ two_ne_zero _ _).symm
    _ ≤ 2 ^ (1024 : ℤ) := zpow_le_zpow_right₀ (by norm_num) (by omega)

theorem overflow_le (hm : 2 ^ 52 ≤ m) (he : 972 ≤ e) : (2 : ℚ) ^ (1024 : ℤ) ≤ m * 2 ^ e := by
  have hm' : (2 : ℚ) ^ (52 : ℤ) ≤ m := by exact_mod_cast hm
  calc (2 : ℚ) ^ (1024 : ℤ) ≤ 2 ^ (52 + e) := zpow_le_zpow_right₀ (by norm_num) (by omega)
    _ = 2 ^ (52 : ℤ) * 2 ^ e := zpow_add₀ two_ne_zero _ _
    _ ≤ m * 2 ^ e := by gcongr

/-- A mantissa with its leading place, or with the least exponent, is packed to its place. -/
theorem place_pack (hm : 0 < m) (hlt : m < 2 ^ 53) (hleast : -1074 ≤ e)
    (hfull : 2 ^ 52 ≤ m ∨ e = -1074) :
    placeUnpacked? (unpack Format.binary64
      (UnpackedFloat.pack Format.binary64 (.finite s m e hm))) = some (placeOf s (m * 2 ^ e)) := by
  by_cases he : e ≤ 971
  · have hbelow := canonical_lt hlt he
    rw [unpack_pack_finite s hm ⟨hlt, he, hleast, hfull⟩]
    rw [placeOf, if_pos hbelow]
    cases s <;> rfl
  · have habove := overflow_le (hfull.resolve_right (by omega)) (show 972 ≤ e by omega)
    rw [unpack_pack_overflow s hm (by omega)]
    rw [placeOf, if_neg (not_lt.2 habove)]
    cases s <;> rfl

theorem place_zero : placeUnpacked? (unpack Format.binary64
    (UnpackedFloat.pack Format.binary64 (.zero s))) = some (.ofRat 0) := by
  cases s <;> rfl

/-- A float with a given mantissa and exponent, a zero without mantissa. -/
def finish (p : ExtendedMantissa × ℤ) : UnpackedFloat :=
  if h : p.1.mantissa = 0 then .zero s else .finite s p.1.mantissa p.2 (Nat.pos_of_ne_zero h)

/-- A rounded mantissa is packed to its place, also if it was rounded up to a power of two. -/
theorem place_finish {r : ℕ} {g : ℤ} (hr : r ≤ 2 ^ 53) (hleast : -1074 ≤ g)
    (hfull : 2 ^ 52 ≤ r ∨ g = -1074) :
    placeUnpacked? (unpack Format.binary64 (UnpackedFloat.pack Format.binary64
      (finish s (shiftToTargetExponent Format.binary64 r g .exact)))) =
        some (placeOf s (r * 2 ^ g)) := by
  unfold finish
  by_cases hcarry : r < 2 ^ 53
  · simp only [shift_small hcarry hleast]
    split_ifs with hzero
    · rw [place_zero, hzero]
      cases s <;> simp [placeOf, withSign]
    · exact place_pack s (Nat.pos_of_ne_zero hzero) hcarry hleast hfull
  · obtain rfl : r = 2 ^ 53 := by omega
    simp only [shift_carry hleast]
    rw [dif_neg (by norm_num), place_pack s (by norm_num) (by norm_num) (by omega) (.inl le_rfl),
      zpow_add_one₀ two_ne_zero]
    congr 2
    push_cast
    ring

/-- **A magnitude is rounded to the nearest float.** -/
theorem place_roundWithAccuracy (hm : 0 < m) (he : e ≤ grid (m * 2 ^ e)) :
    placeUnpacked? (unpack Format.binary64 (UnpackedFloat.pack Format.binary64
      (roundWithAccuracy Format.binary64 s m e .exact))) =
        some (placeOf s (rounded (m * 2 ^ e))) := by
  obtain ⟨hexponent, hvalue⟩ := shift_to_grid hm he
  have hpos : (0 : ℚ) < m * 2 ^ e := by positivity
  have hround : roundWithAccuracy Format.binary64 s m e .exact =
      finish s (shiftToTargetExponent Format.binary64
        (shiftToTargetExponent Format.binary64 m e .exact).1.roundedMantissa
        (shiftToTargetExponent Format.binary64 m e .exact).2 .exact) := rfl
  rw [hround, hexponent]
  generalize (shiftToTargetExponent Format.binary64 m e .exact).1.roundedMantissa = r at hvalue ⊢
  have hleast : -1074 ≤ grid (m * 2 ^ e) := le_max_right _ _
  have hstep := step_pos (m * 2 ^ e)
  have hle : r ≤ 2 ^ 53 := by
    have hbelow := rounded_le_two_pow hpos (by omega) (lt_of_grid (m * 2 ^ e : ℚ))
    rw [← hvalue, add_comm, zpow_add₀ two_ne_zero, mul_le_mul_iff_left₀ hstep] at hbelow
    exact_mod_cast hbelow
  have hfull : 2 ^ 52 ≤ r ∨ grid (m * 2 ^ e) = -1074 := by
    by_cases hg : grid (m * 2 ^ e) = -1074
    · exact .inr hg
    · have hlarge := two_pow_le_rounded hpos (by omega) (le_of_grid hpos (by omega))
      rw [← hvalue, add_comm, zpow_add₀ two_ne_zero, mul_le_mul_iff_left₀ hstep] at hlarge
      exact .inl (by exact_mod_cast hlarge)
  rw [place_finish s hle hleast hfull, ← hvalue]
  rfl

/-- The exponent of a product of canonical floats is at most that of its grid. -/
theorem exponent_le_grid {m₁ m₂ : ℕ} {e₁ e₂ : ℤ} (hm₁ : 0 < m₁) (hm₂ : 0 < m₂)
    (h₁ : Canonical m₁ e₁) (h₂ : Canonical m₂ e₂) :
    e₁ + e₂ ≤ grid ((m₁ * m₂ : ℕ) * 2 ^ (e₁ + e₂)) := by
  have hlog : ∀ n : ℕ, 2 ^ 52 ≤ n → 52 ≤ n.log2 := fun n hn =>
    (Nat.le_log2 (by positivity)).2 hn
  rw [grid, log_magnitude (Nat.mul_pos hm₁ hm₂)]
  by_cases hfull : 2 ^ 52 ≤ m₁ * m₂
  · have := hlog _ hfull
    omega
  · -- otherwise both have the least exponent
    have hleft : ¬2 ^ 52 ≤ m₁ := fun h => hfull (h.trans (Nat.le_mul_of_pos_right m₁ hm₂))
    have hright : ¬2 ^ 52 ≤ m₂ := fun h => hfull (h.trans (Nat.le_mul_of_pos_left m₂ hm₁))
    have := h₁.full.resolve_left hleft
    have := h₂.full.resolve_left hright
    omega

end Places

/-! ### Products -/

theorem withSign_mul (s t : Sign) (a b : ℚ) :
    withSign s a * withSign t b = withSign (s * t) (a * b) := by
  cases s <;> cases t
  · exact neg_mul_neg a b
  · exact neg_mul a b
  · exact mul_neg a b
  · rfl

theorem nearestPlace_zero : nearestPlace 0 = .ofRat 0 := by
  simp [nearestPlace, placeOf, withSign]

theorem nearestPlace_withSign (s : Sign) {a : ℚ} (ha : 0 < a) :
    nearestPlace (withSign s a) = placeOf s (rounded a) := by
  cases s with
  | negative =>
    show placeOf (if -a < 0 then .negative else .positive) (rounded |-a|) = _
    rw [if_pos (neg_neg_of_pos ha), abs_neg, abs_of_pos ha]
  | positive =>
    show placeOf (if a < 0 then .negative else .positive) (rounded |a|) = _
    rw [if_neg ha.not_gt, abs_of_pos ha]

variable {x y : Float} {v w : ℚ}

theorem value_of_zero {s : Sign} (hx : exactValue? x = some v) (h : x.toModel.unpack = .zero s) :
    v = 0 := by
  rw [exactValue?_eq_some_iff, place?_eq, h] at hx
  exact (ofRat_inj.1 (Option.some.inj hx)).symm

/-- The rational value of a finite float by its sign. -/
theorem value_of_finite {s : Sign} {m : ℕ} {e : ℤ} {hm : 0 < m} (hx : exactValue? x = some v)
    (h : x.toModel.unpack = .finite s m e hm) : v = withSign s (m * 2 ^ e) := by
  rw [exactValue?_eq_some_iff, place?_eq, h] at hx
  cases s <;> exact (ofRat_inj.1 (Option.some.inj hx)).symm

/-- **The product of two finite floats is the float nearest to the rational product.** -/
theorem place?_mul (hx : exactValue? x = some v) (hy : exactValue? y = some w) :
    place? (x * y) = some (nearestPlace (v * w)) := by
  have hmul : place? (x * y) = placeUnpacked? (unpack Format.binary64 (UnpackedFloat.pack
      Format.binary64 (UnpackedFloat.mul Format.binary64 x.toModel.unpack y.toModel.unpack))) :=
    place?_eq (x * y)
  rw [hmul]
  rcases unpack_of_exactValue? hx with ⟨s, hs⟩ | ⟨s, m, e, hm, hs⟩
  · rw [value_of_zero hx hs, zero_mul, nearestPlace_zero, hs]
    rcases unpack_of_exactValue? hy with ⟨t, ht⟩ | ⟨t, n, f, hn, ht⟩ <;> rw [ht]
    · exact place_zero (s * t)
    · exact place_zero (s * t)
  · rcases unpack_of_exactValue? hy with ⟨t, ht⟩ | ⟨t, n, f, hn, ht⟩
    · rw [value_of_zero hy ht, mul_zero, nearestPlace_zero, hs, ht]
      exact place_zero (s * t)
    · have hgrid := exponent_le_grid hm hn (hs ▸ isCanonical_unpack x) (ht ▸ isCanonical_unpack y)
      have hmagnitude : ((m * n : ℕ) : ℚ) * 2 ^ (e + f) = m * 2 ^ e * (n * 2 ^ f) := by
        rw [zpow_add₀ two_ne_zero]
        push_cast
        ring
      rw [value_of_finite hx hs, value_of_finite hy ht, withSign_mul,
        nearestPlace_withSign (s * t) (by positivity), ← hmagnitude, hs, ht]
      exact place_roundWithAccuracy (s * t) (Nat.mul_pos hm hn) hgrid

end Optimization.Decimal
