import Optimization.Parameters
import Optimization.Proofs.Acceptance
import Optimization.Proofs.Folding
import Optimization.Proofs.Products
import Optimization.Proofs.Values

/-!
# Time limits

A time limit is a number of seconds. It is multiplied by a thousand, its fraction is dropped, and
what lies below zero becomes zero; the outcome must be an integer of 32 bits. So a limit of about
25 days or more is refused, and so is a float whose product with a thousand lies below all floats.
All others give both methods the same limit, and a greater limit never gives less time.

* `Number.millis` : where the milliseconds lie before the fraction is dropped;
* `rounded_thousand_lt_iff` : rounding does not lift a product to the limit of the control numbers;
* `Usable`, `usable_iff` : the limits that are taken;
* `millis_mono` : the order is kept, also between integers and floats;
* `time_limits` : the whole.

`billion_refused` is about a limit that is refused.
-/

namespace Optimization
open Decimal (place? exactValue? exactValue?_eq_some_iff Extended nearestInt nearestPlace rounded)

namespace Number

/-! ### Milliseconds -/

/-- Where a thousand times a number of given value lies: integers are multiplied as they are, and
the product of a float is rounded. -/
def millis (x : Number) (q : ℚ) : Extended :=
  match x with
  | real _ => nearestPlace (q * 1000)
  | _ => .ofRat (q * 1000)

theorem millis_real (y : Float) (q : ℚ) : (real y).millis q = nearestPlace (q * 1000) := rfl

theorem millis_of_whole? {x : Number} {n : ℤ} (h : x.whole? = some n) (q : ℚ) :
    x.millis q = .ofRat (q * 1000) := by
  cases x with
  | real y => cases h
  | _ => rfl

/-- What is no integer is a float. -/
theorem exists_real {x : Number} (h : x.whole? = none) : ∃ y, x = real y := by
  cases x with
  | real y => exact ⟨y, rfl⟩
  | _ => cases h

theorem exactValue?_thousand : exactValue? (nearestInt 1000) = some 1000 := by decide +kernel

theorem mul_thousand_of_whole? {x : Number} {n : ℤ} (h : x.whole? = some n) :
    x.mul (integer 1000) = .ok (integer (n * 1000)) := by
  rw [mul, lift, h]
  rfl

theorem mul_thousand_real (y : Float) :
    (real y).mul (integer 1000) = .ok (real (y * nearestInt 1000)) := by
  have hthousand : (integer 1000).toFloat = .ok (nearestInt 1000) := by
    simp only [toFloat, floatOfInt, Decimal.isInf_of_exactValue? exactValue?_thousand]
    rfl
  show ((pure y : Except Fault Float) >>= fun u => (integer 1000).toFloat >>= fun v =>
    pure (real (u * v))) = _
  rw [hthousand]
  rfl

/-- The milliseconds of a finite number: the integer part of its place times a thousand. -/
theorem milliseconds_of_finite {x : Number} {q u : ℚ} (hx : x.value? = some q)
    (hu : x.millis q = .ofRat u) :
    ∃ n, (x.mul (integer 1000) >>= toInteger) = .ok n ∧ max 0 n = max 0 ⌊u⌋ := by
  cases hwhole : x.whole? with
  | some n =>
    rw [value?_of_whole? hwhole, Option.some.injEq] at hx
    rw [millis_of_whole? hwhole, Decimal.ofRat_inj] at hu
    have hfloor : ⌊u⌋ = n * 1000 := by
      rw [← hu, ← hx]
      exact_mod_cast Int.floor_intCast (R := ℚ) (n * 1000)
    exact ⟨n * 1000, by rw [mul_thousand_of_whole? hwhole]; rfl, by rw [hfloor]⟩
  | none =>
    obtain ⟨y, rfl⟩ := exists_real hwhole
    rw [mul_thousand_real]
    refine toInteger_of_place? ?_
    rw [Decimal.place?_mul hx exactValue?_thousand, ← millis_real y, hu]

/-- A product beyond the floats has no integer part. -/
theorem milliseconds_of_infinite {x : Number} {q : ℚ} (hx : x.value? = some q)
    (hu : x.millis q = ⊥ ∨ x.millis q = ⊤) :
    (x.mul (integer 1000) >>= toInteger) = .error .infinityToInteger := by
  cases x with
  | real y =>
    rw [mul_thousand_real]
    refine toInteger_of_infinite ?_
    rw [Decimal.place?_mul hx exactValue?_thousand, ← millis_real y]
    exact hu.imp (congrArg some) (congrArg some)
  | _ => rcases hu with hu | hu <;> cases hu

end Number

/-! ### The greatest limits -/

namespace Decimal

section Gap

variable {m : ℕ} {e : ℤ}

/-- No float lies so close to `2 ^ 31 / 1000` from below that a thousand times it is rounded up to
`2 ^ 31`. -/
theorem thousand_gap (hc : Canonical m e) (h : (m : ℚ) * 2 ^ e * 1000 < 2 ^ (31 : ℤ)) :
    (m : ℚ) * 2 ^ e * 1000 < 2 ^ (31 : ℤ) - 2 ^ ((31 : ℤ) - 54) := by
  have hm : (m : ℚ) < 2 ^ (53 : ℤ) := by exact_mod_cast hc.mantissa_lt
  rcases lt_trichotomy e (-31) with he | rfl | he
  · -- the float lies below `2 ^ 21`
    have hpow : (2 : ℚ) ^ e ≤ 2 ^ (-32 : ℤ) := zpow_le_zpow_right₀ (by norm_num) (by omega)
    have hsmall : (m : ℚ) * 2 ^ e ≤ 2 ^ (53 : ℤ) * 2 ^ (-32 : ℤ) := by gcongr
    norm_num at hsmall ⊢
    linarith
  · -- its mantissa is at most the integer part of `2 ^ 62 / 1000`
    have hmantissa : m ≤ 4611686018427387 := by
      have hlt : (m : ℚ) * 1000 < 4611686018427387904 := by
        norm_num at h
        linarith
      have hlt' : m * 1000 < 4611686018427387904 := by exact_mod_cast hlt
      omega
    have hle : (m : ℚ) ≤ 4611686018427387 := by exact_mod_cast hmantissa
    norm_num
    linarith
  · -- the float is at least `2 ^ 22`
    have hfull : (2 : ℚ) ^ (52 : ℤ) ≤ m := by exact_mod_cast hc.full.resolve_right (by omega)
    have hpow : (2 : ℚ) ^ (-30 : ℤ) ≤ 2 ^ e := zpow_le_zpow_right₀ (by norm_num) (by omega)
    have hlarge : (2 : ℚ) ^ (52 : ℤ) * 2 ^ (-30 : ℤ) ≤ m * 2 ^ e := by gcongr
    norm_num at h hlarge
    linarith

end Gap

variable {y : Float} {q : ℚ}

/-- A thousand times a float is rounded to less than `2 ^ 31` only if it is less. -/
theorem rounded_thousand_lt_iff (hy : exactValue? y = some q) (hq : 0 < q) :
    rounded (q * 1000) < 2 ^ (31 : ℤ) ↔ q * 1000 < 2 ^ (31 : ℤ) := by
  have hpos : 0 < q * 1000 := by positivity
  rw [← not_le, ← not_le, two_pow_le_rounded_iff (by norm_num) hpos, not_iff_not]
  constructor
  · intro hhalf
    by_contra hlt
    push Not at hlt
    rcases unpack_of_exactValue? hy with ⟨s, hs⟩ | ⟨s, m, e, hm, hs⟩
    · exact hq.ne' (value_of_zero hy hs)
    · have hvalue := value_of_finite hy hs
      have hcanonical : IsCanonical (.finite s m e hm) := hs ▸ isCanonical_unpack y
      have hsize : (0 : ℚ) < m * 2 ^ e := by positivity
      cases s with
      | negative => exact absurd hq (hvalue ▸ (neg_neg_of_pos hsize).not_gt)
      | positive =>
        obtain rfl : q = m * 2 ^ e := hvalue
        exact (thousand_gap hcanonical hlt).not_ge hhalf
  · intro hle
    have : (0 : ℚ) < 2 ^ ((31 : ℤ) - 54) := by positivity
    linarith

theorem placeOf_eq_ofRat_iff {s : Float.Model.UnpackedFloat.Sign} {a u : ℚ} :
    placeOf s a = .ofRat u ↔ a < 2 ^ (1024 : ℤ) ∧ u = withSign s a := by
  unfold placeOf
  split_ifs with h
  · rw [ofRat_inj, and_iff_right h, eq_comm]
  · refine iff_of_false ?_ fun hfinite => h hfinite.1
    cases s <;> simp [infinityOf, Extended.ofRat]

/-- A negative product is not rounded to minus infinity if it lies above the least float by less
than half a step. -/
theorem usable_negative {v : ℚ} (hv : 0 < v) :
    (∃ u, nearestPlace (-v) = .ofRat u ∧ u < 2 ^ (31 : ℤ)) ↔
      v < 2 ^ (1024 : ℤ) - 2 ^ (970 : ℤ) := by
  have hround : 0 ≤ rounded v := rounded_nonneg hv.le
  have hlimit : (0 : ℚ) < 2 ^ (31 : ℤ) := by positivity
  have hhalf : v < 2 ^ (1024 : ℤ) - 2 ^ ((1024 : ℤ) - 54) ↔ rounded v < 2 ^ (1024 : ℤ) := by
    rw [← not_le, ← two_pow_le_rounded_iff (by norm_num) hv, not_le]
  refine Iff.trans ?_ hhalf.symm
  show (∃ u, nearestPlace (withSign .negative v) = .ofRat u ∧ _) ↔ _
  simp only [nearestPlace_withSign .negative hv, placeOf_eq_ofRat_iff]
  constructor
  · rintro ⟨u, ⟨h, -⟩, -⟩
    exact h
  · exact fun h => ⟨_, ⟨h, rfl⟩, by simp only [withSign]; linarith⟩

/-- A positive product. -/
theorem usable_positive {v : ℚ} (hv : 0 < v) :
    (∃ u, nearestPlace v = .ofRat u ∧ u < 2 ^ (31 : ℤ)) ↔ rounded v < 2 ^ (31 : ℤ) := by
  have hlimit : (2 : ℚ) ^ (31 : ℤ) < 2 ^ (1024 : ℤ) :=
    zpow_lt_zpow_right₀ (by norm_num) (by norm_num)
  show (∃ u, nearestPlace (withSign .positive v) = .ofRat u ∧ _) ↔ _
  simp only [nearestPlace_withSign .positive hv, placeOf_eq_ofRat_iff]
  constructor
  · rintro ⟨u, ⟨-, rfl⟩, h⟩
    exact h
  · exact fun h => ⟨_, ⟨h.trans hlimit, rfl⟩, h⟩

end Decimal

namespace Parameters

/-- The default settings with a time limit. -/
def limited (x : Scalar) : Parameters := ({} : Parameters).set .timeLimit x

/-- An integer that is not negative is handed to an engine if it has 31 bits. -/
theorem toEngineInteger_max (n : ℤ) :
    (Scalar.integer (max 0 n)).toEngineInteger =
      if max 0 n ≤ 2147483647 then .ok (max 0 n) else .error .tooLarge := by
  have hfits : CellType.int32.fits (max 0 n) = true ↔ max 0 n ≤ 2147483647 := by
    rw [CellType.fits_int32]
    omega
  show (if CellType.int32.fits (max 0 n) = true then _ else _) = _
  simp only [hfits]
  rfl

/-- The time limit as an engine takes it. -/
theorem timeControl_limited (x : Number) :
    (limited (.number x)).timeControl =
      (x.mul (.integer 1000) >>= Number.toInteger) >>= fun n =>
        (Scalar.integer (max 0 n)).toEngineInteger := by
  have hseconds : (limited (.number x)).milliseconds? =
      (x.mul (.integer 1000) >>= Number.toInteger) >>= fun n => pure (some (max 0 n)) := by
    show ((x.mul (.integer 1000) >>= fun y => pure (Scalar.number y)) >>= fun y =>
      y.toInteger >>= fun n => pure (some (max 0 n))) = _
    cases x.mul (.integer 1000) <;> rfl
  rw [timeControl, hseconds]
  cases x.mul (.integer 1000) >>= Number.toInteger <;> rfl

/-- A finite number of seconds that the control numbers can hold: a thousand times it lies below
`2 ^ 31`, and the product of a float is not rounded to minus infinity. -/
structure Usable (x : Number) (q : ℚ) : Prop where
  below : q * 1000 < 2 ^ (31 : ℤ)
  above : x.whole? = none → -(2 ^ (1024 : ℤ) - 2 ^ (970 : ℤ)) < q * 1000

variable {x y : Number} {q r u w : ℚ}

theorem usable_iff (hx : x.value? = some q) :
    Usable x q ↔ ∃ u, x.millis q = .ofRat u ∧ u < 2 ^ (31 : ℤ) := by
  cases hwhole : x.whole? with
  | some n =>
    rw [Number.millis_of_whole? hwhole]
    constructor
    · exact fun h => ⟨_, rfl, h.below⟩
    · rintro ⟨u, hu, hlt⟩
      obtain rfl := Decimal.ofRat_inj.1 hu
      exact ⟨hlt, fun h => absurd (h.symm.trans hwhole) nofun⟩
  | none =>
    obtain ⟨y, rfl⟩ := Number.exists_real hwhole
    have hleast : -((2 : ℚ) ^ (1024 : ℤ) - 2 ^ (970 : ℤ)) < 0 :=
      neg_neg_of_pos (sub_pos.2 (zpow_lt_zpow_right₀ (by norm_num) (by norm_num)))
    have hlimit : (0 : ℚ) < 2 ^ (31 : ℤ) := by positivity
    rw [Number.millis_real]
    rcases lt_trichotomy q 0 with hq | rfl | hq
    · rw [← neg_neg (q * 1000), Decimal.usable_negative (by linarith)]
      constructor
      · exact fun h => neg_lt.1 (h.above rfl)
      · exact fun h => ⟨by linarith, fun _ => neg_lt.1 h⟩
    · rw [zero_mul, Decimal.nearestPlace_zero]
      exact iff_of_true ⟨by rwa [zero_mul], fun _ => by rwa [zero_mul]⟩ ⟨0, rfl, hlimit⟩
    · rw [Decimal.usable_positive (by linarith), Decimal.rounded_thousand_lt_iff hx hq]
      exact ⟨Usable.below, fun h => ⟨h, fun _ => hleast.trans (by linarith)⟩⟩

/-- A product that is not positive is not rounded to a positive one. -/
theorem millis_nonpos (hu : x.millis q = .ofRat u) (hq : q ≤ 0) : u ≤ 0 := by
  cases x with
  | real y =>
    rcases hq.lt_or_eq with hneg | rfl
    · have hpos : 0 < -(q * 1000) := by linarith
      rw [Number.millis_real, ← neg_neg (q * 1000)] at hu
      change nearestPlace (Decimal.withSign .negative (-(q * 1000))) = _ at hu
      rw [Decimal.nearestPlace_withSign .negative hpos] at hu
      rw [(Decimal.placeOf_eq_ofRat_iff.1 hu).2]
      exact neg_nonpos.2 (Decimal.rounded_nonneg hpos.le)
    · rw [Number.millis_real, zero_mul, Decimal.nearestPlace_zero] at hu
      exact (Decimal.ofRat_inj.1 hu).ge
  | _ =>
    obtain rfl := Decimal.ofRat_inj.1 hu
    linarith

/-- A positive product is a natural number or rounded. -/
theorem millis_pos (hx : x.value? = some q) (hu : x.millis q = .ofRat u) (hq : 0 < q) :
    (∃ k : ℕ, q * 1000 = k ∧ u = k) ∨ u = rounded (q * 1000) := by
  cases hwhole : x.whole? with
  | some n =>
    rw [Number.value?_of_whole? hwhole, Option.some.injEq] at hx
    rw [Number.millis_of_whole? hwhole, Decimal.ofRat_inj] at hu
    have hn : 0 < n := by exact_mod_cast hx ▸ hq
    have hcast : ((n.toNat : ℤ) : ℚ) = n := by rw [Int.toNat_of_nonneg hn.le]
    have hk : q * 1000 = ((n.toNat * 1000 : ℕ) : ℚ) := by
      push_cast at hcast ⊢
      rw [hcast, hx]
    exact .inl ⟨n.toNat * 1000, hk, hu.symm.trans hk⟩
  | none =>
    obtain ⟨y, rfl⟩ := Number.exists_real hwhole
    have hpos : 0 < q * 1000 := by positivity
    change nearestPlace (Decimal.withSign .positive (q * 1000)) = _ at hu
    rw [Decimal.nearestPlace_withSign .positive hpos] at hu
    exact .inr (Decimal.placeOf_eq_ofRat_iff.1 hu).2

/-- The order of positive products is that of the limits: integers below `2 ^ 31` are floats, and
rounding does not pass them. -/
theorem millis_mono (hx : x.value? = some q) (hy : y.value? = some r) (hq : 0 < q)
    (h : q ≤ r) (hu : x.millis q = .ofRat u) (hw : y.millis r = .ofRat w)
    (hu' : u < 2 ^ (31 : ℤ)) (hw' : w < 2 ^ (31 : ℤ)) : u ≤ w := by
  have hpos : 0 < q * 1000 := by positivity
  have hle : q * 1000 ≤ r * 1000 := by linarith
  have hsmall : ∀ k : ℕ, (k : ℚ) < 2 ^ (31 : ℤ) → k < 2 ^ 53 := fun k hk => by
    have : k < 2 ^ 31 := by exact_mod_cast hk
    omega
  -- an integer and a float are compared through the integer, which rounding does not pass
  rcases millis_pos hx hu hq with ⟨k, hk, rfl⟩ | rfl
  · rcases millis_pos hy hw (hq.trans_le h) with ⟨l, hl, rfl⟩ | rfl
    · rwa [hk, hl] at hle
    · exact Decimal.le_rounded (hsmall k hu') (hpos.trans_le hle) (hk ▸ hle)
  · rcases millis_pos hy hw (hq.trans_le h) with ⟨l, hl, rfl⟩ | rfl
    · exact Decimal.rounded_le (hsmall l hw') hpos (hl ▸ hle)
    · exact Decimal.rounded_mono hpos hle

/-- The time limit of usable seconds. -/
theorem timeControl_of_usable (hx : x.value? = some q) (hu : x.millis q = .ofRat u)
    (hlt : u < 2 ^ (31 : ℤ)) :
    (limited (.number x)).timeControl = .ok (max 0 ⌊u⌋) ∧ max 0 ⌊u⌋ ≤ 2147483647 := by
  obtain ⟨n, hn, hfloor⟩ := Number.milliseconds_of_finite hx hu
  have hle : max 0 ⌊u⌋ ≤ 2147483647 := by
    have hcast : u < ((2147483648 : ℤ) : ℚ) := by
      norm_num at hlt ⊢
      exact hlt
    have := Int.floor_lt.2 hcast
    omega
  rw [timeControl_limited, hn, ← hfloor]
  refine ⟨?_, hfloor ▸ hle⟩
  show (Scalar.integer (max 0 n)).toEngineInteger = _
  rw [toEngineInteger_max, if_pos (hfloor ▸ hle)]

/-- Other finite limits are refused. -/
theorem timeControl_of_not_usable (hx : x.value? = some q) (h : ¬Usable x q) :
    ∃ f : Fault, f.category = .overflow ∧ (limited (.number x)).timeControl = .error f := by
  rw [usable_iff hx] at h
  rw [timeControl_limited]
  -- the product lies beyond the floats, or its integer part is too great
  rcases Decimal.Extended.eq_bot_or_top_or_ofRat (x.millis q) with hu | hu | ⟨u, hu⟩
  · exact ⟨_, rfl, by rw [Number.milliseconds_of_infinite hx (.inl hu)]; rfl⟩
  · exact ⟨_, rfl, by rw [Number.milliseconds_of_infinite hx (.inr hu)]; rfl⟩
  · obtain ⟨n, hn, hfloor⟩ := Number.milliseconds_of_finite hx hu
    have hlarge : ¬max 0 n ≤ 2147483647 := by
      have hle : ((2147483648 : ℤ) : ℚ) ≤ u := by
        have := not_lt.1 fun hlt => h ⟨u, hu, hlt⟩
        norm_num at this ⊢
        exact this
      have := Int.le_floor.2 hle
      omega
    refine ⟨.tooLarge, rfl, ?_⟩
    rw [hn]
    show (Scalar.integer (max 0 n)).toEngineInteger = _
    rw [toEngineInteger_max, if_neg hlarge]

/-! ### Both methods -/

theorem simplexControl_limited (t : Scalar) :
    (limited t).simplexControl =
      (limited t).timeControl >>= fun n => pure { timeLimit := n } := by
  have hrequire : (limited t).require .simplexControl = .ok () := rfl
  have hlevel : ((limited t).values .messageLevel).toEngineInteger = .ok 1 := rfl
  have hiteration : (limited t).iterationControl = .ok 2147483647 := rfl
  rw [simplexControl, hrequire, hlevel, hiteration]
  rfl

theorem searchControl_limited (t : Scalar) :
    (limited t).searchControl =
      (limited t).timeControl >>= fun n => pure { timeLimit := n } := by
  have hrequire : (limited t).require .searchControl = .ok () := rfl
  have hlevel : ((limited t).values .messageLevel).toEngineInteger = .ok 1 := rfl
  have hbranching : ((limited t).values .branching).toEngineInteger = .ok 4 := rfl
  have hbacktracking : ((limited t).values .backtracking).toEngineInteger = .ok 3 := rfl
  have hpreprocessing : ((limited t).values .preprocessing).toEngineInteger = .ok 2 := rfl
  rw [searchControl, hrequire, hlevel, hbranching, hbacktracking, hpreprocessing]
  rfl

/-- Both methods are given a limit of `n` milliseconds; all other control numbers are the usual
ones. -/
def Lasts (t : Scalar) (n : ℤ) : Prop :=
  (limited t).simplexControl = .ok { timeLimit := n } ∧
    (limited t).searchControl = .ok { timeLimit := n }

/-- Both methods refuse the limit as too large. -/
def Overflows (t : Scalar) : Prop :=
  ∃ f : Fault, f.category = .overflow ∧ (limited t).simplexControl = .error f ∧
    (limited t).searchControl = .error f

theorem lasts_iff (t : Scalar) (n : ℤ) : Lasts t n ↔ (limited t).timeControl = .ok n := by
  rw [Lasts, simplexControl_limited, searchControl_limited]
  cases (limited t).timeControl with
  | error f => exact iff_of_false nofun nofun
  | ok m =>
    constructor
    · rintro ⟨h, -⟩
      have := congrArg SimplexControl.timeLimit (Except.ok.inj h)
      exact congrArg _ this
    · intro h
      obtain rfl : m = n := Except.ok.inj h
      exact ⟨rfl, rfl⟩

/-- A limit that both methods take is the integer part of the product, cut off at zero. -/
theorem floor_of_lasts {n : ℤ} (hx : x.value? = some q) (h : Lasts (.number x) n) :
    ∃ u, x.millis q = .ofRat u ∧ u < 2 ^ (31 : ℤ) ∧ n = max 0 ⌊u⌋ := by
  rw [lasts_iff] at h
  by_cases husable : Usable x q
  · obtain ⟨u, hu, hlt⟩ := (usable_iff hx).1 husable
    exact ⟨u, hu, hlt, Except.ok.inj (h.symm.trans (timeControl_of_usable hx hu hlt).1)⟩
  · obtain ⟨f, -, hf⟩ := timeControl_of_not_usable hx husable
    exact absurd (h.symm.trans hf) nofun

/-- **Time limits.** A finite number of seconds is given to both methods as one number of
milliseconds, which lies between zero and the greatest that a control number can hold, if it is
usable, and is refused by both if it is not. A greater limit never gives less time, and no limit
gives the most. -/
theorem time_limits (hx : x.value? = some q) (hy : y.value? = some r) (h : q ≤ r) :
    (Usable x q → ∃ n, 0 ≤ n ∧ n ≤ 2147483647 ∧ Lasts (.number x) n) ∧
      (¬Usable x q → Overflows (.number x)) ∧
      (∀ m n, Lasts (.number x) m → Lasts (.number y) n → m ≤ n) ∧
      Lasts .nothing 2147483647 := by
  refine ⟨?_, ?_, ?_, ⟨rfl, rfl⟩⟩
  · intro husable
    obtain ⟨u, hu, hlt⟩ := (usable_iff hx).1 husable
    obtain ⟨hcontrol, hle⟩ := timeControl_of_usable hx hu hlt
    exact ⟨_, le_max_left _ _, hle, (lasts_iff _ _).2 hcontrol⟩
  · intro hnot
    obtain ⟨f, hf, hcontrol⟩ := timeControl_of_not_usable hx hnot
    refine ⟨f, hf, ?_, ?_⟩
    · rw [simplexControl_limited, hcontrol]
      rfl
    · rw [searchControl_limited, hcontrol]
      rfl
  · intro m n hm hn
    obtain ⟨u, hu, hlt, rfl⟩ := floor_of_lasts hx hm
    obtain ⟨w, hw, hlt', rfl⟩ := floor_of_lasts hy hn
    -- only a positive limit is left by the cut at zero
    rcases le_or_gt q 0 with hq | hq
    · rw [max_eq_left (Int.floor_nonpos (millis_nonpos hu hq))]
      exact le_max_left _ _
    · exact max_le_max_left 0 (Int.floor_le_floor (millis_mono hx hy hq h hu hw hlt hlt'))

theorem half_minute_before_a_day :
    (∃ n, 0 ≤ n ∧ n ≤ 2147483647 ∧ Lasts (.integer 30) n) ∧
      (∀ m n, Lasts (.integer 30) m → Lasts (.real 86400.5) n → m ≤ n) := by
  have hday : (Number.real 86400.5).value? = some (172801 / 2) := by decide +kernel
  have hlimits := time_limits (x := .integer 30) (q := 30) rfl hday (by norm_num)
  exact ⟨hlimits.1 ⟨by norm_num, nofun⟩, hlimits.2.2.1⟩

/-- A limit of a thousand million seconds, about 32 years, is a finite one that is refused. -/
theorem billion_refused :
    (Number.integer 1000000000).value? = some 1000000000 ∧
      Overflows (.integer 1000000000) ∧ ¬∃ n, Lasts (.integer 1000000000) n := by
  have hcontrol : (limited (.integer 1000000000)).timeControl = .error .tooLarge := rfl
  refine ⟨rfl, ⟨.tooLarge, rfl, rfl, rfl⟩, ?_⟩
  rintro ⟨n, hn⟩
  rw [lasts_iff, hcontrol] at hn
  cases hn

end Parameters

end Optimization
