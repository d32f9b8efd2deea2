import Mathlib.Data.Int.Log
import Mathlib.Data.Rat.Floor
import Mathlib.Tactic

/-!
# Rounding to the nearest float

Floats lie on grids whose steps double with each power of two, down to a least step. A rational
without sign is rounded to the nearest point of its grid, a tie to the even one. Rounding keeps the
order, and points of a grid stay where they are.

* `roundEven` : rounding to integers;
* `grid`, `rounded` : the exponent of the step at a rational, and the nearest point;
* `rounded_mono` : the order is kept;
* `le_rounded`, `rounded_le` : integers that floats can hold are not passed;
* `two_pow_le_rounded_iff` : which rationals are rounded up to a power of two.
-/

namespace Optimization.Decimal

/-! ### Integers -/

/-- The nearest integer, a tie to the even one. -/
def roundEven (q : ℚ) : ℤ :=
  if Int.fract q < 1 / 2 then ⌊q⌋
  else if 1 / 2 < Int.fract q then ⌊q⌋ + 1
  else if ⌊q⌋ % 2 = 0 then ⌊q⌋
  else ⌊q⌋ + 1

variable {p q : ℚ} {n : ℤ}

theorem roundEven_eq_or (q : ℚ) : roundEven q = ⌊q⌋ ∨ roundEven q = ⌊q⌋ + 1 := by
  unfold roundEven
  split_ifs <;> simp

theorem le_roundEven (h : (n : ℚ) ≤ q) : n ≤ roundEven q := by
  have hn : n ≤ ⌊q⌋ := Int.le_floor.2 h
  rcases roundEven_eq_or q with he | he <;> omega

@[simp] theorem roundEven_intCast (n : ℤ) : roundEven n = n := by
  rw [roundEven, Int.fract_intCast, if_pos (by norm_num), Int.floor_intCast]

theorem roundEven_le (h : q ≤ n) : roundEven q ≤ n := by
  rcases h.lt_or_eq with hlt | rfl
  · have hn : ⌊q⌋ < n := Int.floor_lt.2 hlt
    rcases roundEven_eq_or q with he | he <;> omega
  · rw [roundEven_intCast]

theorem roundEven_mono (h : p ≤ q) : roundEven p ≤ roundEven q := by
  rcases (Int.floor_le_floor h).lt_or_eq with hlt | heq
  · -- an integer lies between them
    have hp : roundEven p ≤ ⌊q⌋ := by rcases roundEven_eq_or p with he | he <;> omega
    exact hp.trans (le_roundEven (Int.floor_le q))
  · have hfract : Int.fract p ≤ Int.fract q := by
      unfold Int.fract
      rw [heq]
      linarith
    unfold roundEven
    rw [heq]
    split_ifs <;> first | omega | linarith

/-- A rational is rounded up to an even integer from the half before it on. -/
theorem le_roundEven_iff (hn : n % 2 = 0) : n ≤ roundEven q ↔ (n : ℚ) - 1 / 2 ≤ q := by
  have hfloor := Int.floor_add_fract q
  constructor
  · intro h
    by_contra hlt
    push Not at hlt
    have hle : ⌊q⌋ ≤ n - 1 := by
      have : ⌊q⌋ < n := Int.floor_lt.2 (by linarith)
      omega
    have hround : roundEven q = ⌊q⌋ := by
      rcases hle.lt_or_eq with hless | heq
      · rcases roundEven_eq_or q with he | he <;> omega
      · rw [roundEven, if_pos]
        rw [heq] at hfloor
        push_cast at hfloor
        linarith
    omega
  · intro h
    by_cases hle : (n : ℚ) ≤ q
    · exact le_roundEven hle
    · push Not at hle
      have hq : ⌊q⌋ = n - 1 := by
        rw [Int.floor_eq_iff]
        push_cast
        constructor <;> linarith
      rw [hq] at hfloor
      push_cast at hfloor
      unfold roundEven
      rw [if_neg (by linarith), hq]
      split_ifs <;> omega

/-! ### Grids -/

/-- The exponent of the step of the grid at a rational. -/
def grid (q : ℚ) : ℤ := max (Int.log 2 q - 52) (-1074)

/-- The nearest point of the grid. -/
def rounded (q : ℚ) : ℚ := roundEven (q / 2 ^ grid q) * 2 ^ grid q

theorem grid_mono (hp : 0 < p) (h : p ≤ q) : grid p ≤ grid q :=
  max_le_max_right _ (sub_le_sub_right (Int.log_mono_right hp h) _)

theorem lt_of_grid (q : ℚ) : q < 2 ^ (grid q + 53) := by
  have hlog : q < (2 : ℕ) ^ (Int.log 2 q + 1) := Int.lt_zpow_succ_log_self (by norm_num) q
  push_cast at hlog
  refine hlog.trans_le (zpow_le_zpow_right₀ (by norm_num) ?_)
  have : Int.log 2 q - 52 ≤ grid q := le_max_left _ _
  omega

/-- Above the least step, a rational has its leading place 52 places before the step. -/
theorem le_of_grid (hq : 0 < q) (h : -1074 < grid q) : 2 ^ (grid q + 52) ≤ q := by
  have hlog : ((2 : ℕ) : ℚ) ^ Int.log 2 q ≤ q := Int.zpow_log_le_self (by norm_num) hq
  push_cast at hlog
  have hgrid : grid q + 52 = Int.log 2 q := by
    unfold grid at h ⊢
    omega
  rw [hgrid]
  exact hlog

/-- The step is at most that of a given power of two if the rational lies below it. -/
theorem grid_le {j : ℤ} (hq : 0 < q) (h : q < 2 ^ j) (hj : -1021 ≤ j) : grid q ≤ j - 53 := by
  have hlog : Int.log 2 q < j := (Int.lt_zpow_iff_log_lt (by norm_num) hq).1 (by exact_mod_cast h)
  unfold grid
  omega

variable (q)

theorem step_pos : (0 : ℚ) < 2 ^ grid q := by positivity

variable {q}

/-- Points of the grid are not passed from above. -/
theorem le_rounded_of_grid (h : n * 2 ^ grid q ≤ q) : n * 2 ^ grid q ≤ rounded q := by
  have hn : (n : ℚ) ≤ q / 2 ^ grid q := (le_div_iff₀ (step_pos q)).2 h
  unfold rounded
  gcongr
  exact_mod_cast le_roundEven hn

/-- Points of the grid are not passed from below. -/
theorem rounded_le_of_grid (h : q ≤ n * 2 ^ grid q) : rounded q ≤ n * 2 ^ grid q := by
  have hn : q / 2 ^ grid q ≤ n := (div_le_iff₀ (step_pos q)).2 h
  unfold rounded
  gcongr
  exact_mod_cast roundEven_le hn

theorem rounded_nonneg (h : 0 ≤ q) : 0 ≤ rounded q := by
  have := le_rounded_of_grid (n := 0) (q := q) (by simpa using h)
  simpa using this

/-- A power of two that is a point of the grid is one. -/
theorem two_pow_of_grid {j : ℤ} (h : grid q ≤ j) :
    (2 : ℚ) ^ j = ((2 ^ (j - grid q).toNat : ℤ) : ℚ) * 2 ^ grid q := by
  push_cast
  rw [← zpow_natCast, ← zpow_add₀ two_ne_zero]
  congr 1
  omega

theorem two_pow_le_rounded {j : ℤ} (hq : 0 < q) (hj : -1074 ≤ j) (h : 2 ^ j ≤ q) :
    2 ^ j ≤ rounded q := by
  by_cases hgrid : grid q ≤ j
  · rw [two_pow_of_grid hgrid] at h ⊢
    exact le_rounded_of_grid h
  · -- the leading place of the rational lies on its grid
    have hlarge := le_of_grid hq (by omega)
    have hstep : grid q ≤ grid q + 52 := by omega
    have hbelow : (2 : ℚ) ^ j ≤ 2 ^ (grid q + 52) := zpow_le_zpow_right₀ (by norm_num) (by omega)
    refine hbelow.trans ?_
    rw [two_pow_of_grid hstep] at hlarge ⊢
    exact le_rounded_of_grid hlarge

theorem rounded_le_two_pow {j : ℤ} (hq : 0 < q) (hj : -1021 ≤ j) (h : q < 2 ^ j) :
    rounded q ≤ 2 ^ j := by
  have hgrid : grid q ≤ j := (grid_le hq h hj).trans (by omega)
  rw [two_pow_of_grid hgrid] at h ⊢
  exact rounded_le_of_grid h.le

/-- **Rounding keeps the order.** -/
theorem rounded_mono (hp : 0 < p) (h : p ≤ q) : rounded p ≤ rounded q := by
  rcases (grid_mono hp h).lt_or_eq with hlt | heq
  · -- a power of two lies between them
    have hleast : -1074 ≤ grid p := le_max_right _ _
    have hq : 0 < q := hp.trans_le h
    calc rounded p ≤ 2 ^ (grid p + 53) := rounded_le_two_pow hp (by omega) (lt_of_grid p)
      _ ≤ 2 ^ (grid q + 52) := zpow_le_zpow_right₀ (by norm_num) (by omega)
      _ ≤ rounded q := two_pow_le_rounded hq (by omega) (le_of_grid hq (by omega))
  · unfold rounded
    rw [heq]
    have hround : roundEven (p / 2 ^ grid q) ≤ roundEven (q / 2 ^ grid q) :=
      roundEven_mono (by gcongr)
    gcongr

/-! ### Integers among floats -/

/-- An integer is a point of every grid whose step is at most one. -/
theorem natCast_of_grid (k : ℕ) (h : grid q ≤ 0) :
    (k : ℚ) = ((k * 2 ^ (-grid q).toNat : ℤ) : ℚ) * 2 ^ grid q := by
  push_cast
  rw [mul_assoc, ← zpow_natCast, ← zpow_add₀ two_ne_zero]
  have : ((-grid q).toNat : ℤ) + grid q = 0 := by omega
  rw [this]
  simp

/-- An integer of 53 bits has a step of at most one below it. -/
theorem grid_nonpos {k : ℕ} (hk : k < 2 ^ 53) (hq : 0 < q) (h : q ≤ k) : grid q ≤ 0 := by
  have hk' : (k : ℚ) < 2 ^ (53 : ℤ) := by exact_mod_cast hk
  exact grid_le hq (h.trans_lt hk') (by norm_num)

/-- A rational above an integer of 53 bits is rounded to one above it. -/
theorem le_rounded {k : ℕ} (hk : k < 2 ^ 53) (hq : 0 < q) (h : (k : ℚ) ≤ q) : k ≤ rounded q := by
  by_cases hgrid : grid q ≤ 0
  · rw [natCast_of_grid k hgrid] at h ⊢
    exact le_rounded_of_grid h
  · have hlarge : (2 : ℚ) ^ (53 : ℤ) ≤ q :=
      (zpow_le_zpow_right₀ (by norm_num) (by omega)).trans (le_of_grid hq (by omega))
    have hk' : (k : ℚ) ≤ 2 ^ (53 : ℤ) := by exact_mod_cast hk.le
    exact hk'.trans (two_pow_le_rounded hq (by norm_num) hlarge)

/-- A rational below an integer of 53 bits is rounded to one below it. -/
theorem rounded_le {k : ℕ} (hk : k < 2 ^ 53) (hq : 0 < q) (h : q ≤ k) : rounded q ≤ k := by
  have hgrid := grid_nonpos hk hq h
  rw [natCast_of_grid k hgrid] at h ⊢
  exact rounded_le_of_grid h

/-- **A rational is rounded up to a power of two from half a step before it on.** -/
theorem two_pow_le_rounded_iff {j : ℤ} (hj : -1021 < j) (hq : 0 < q) :
    2 ^ j ≤ rounded q ↔ 2 ^ j - 2 ^ (j - 54) ≤ q := by
  have hhalf : (0 : ℚ) < 2 ^ (j - 54) := by positivity
  by_cases hle : (2 : ℚ) ^ j ≤ q
  · exact iff_of_true (two_pow_le_rounded hq (by omega) hle) (by linarith)
  · push Not at hle
    rcases (grid_le hq hle (by omega)).lt_or_eq with hlt | heq
    · -- the rational lies below the power of two before
      have hbelow : q < 2 ^ (j - 1) :=
        (lt_of_grid q).trans_le (zpow_le_zpow_right₀ (by norm_num) (by omega))
      have hround := rounded_le_two_pow hq (by omega) hbelow
      have hpow : (2 : ℚ) ^ j = 2 * 2 ^ (j - 1) := by
        rw [← zpow_one_add₀ two_ne_zero]
        congr 1
        omega
      have hhalf' : (2 : ℚ) ^ (j - 54) ≤ 2 ^ (j - 1) :=
        zpow_le_zpow_right₀ (by norm_num) (by omega)
      have hpos : (0 : ℚ) < 2 ^ (j - 1) := by positivity
      exact iff_of_false (by linarith) (by linarith)
    · have hstep : (0 : ℚ) < 2 ^ (j - 53) := by positivity
      have hpow : (2 : ℚ) ^ j = ((2 ^ 53 : ℤ) : ℚ) * 2 ^ (j - 53) := by
        rw [show ((2 ^ 53 : ℤ) : ℚ) = 2 ^ (53 : ℤ) by norm_num, ← zpow_add₀ two_ne_zero]
        congr 1
        omega
      have hhalf : (2 : ℚ) ^ (j - 54) = 1 / 2 * 2 ^ (j - 53) := by
        rw [show j - 53 = j - 54 + 1 by omega, zpow_add_one₀ two_ne_zero]
        ring
      rw [rounded, heq, hpow, hhalf, mul_le_mul_iff_left₀ hstep, ← sub_mul, ← le_div_iff₀ hstep,
        ← le_roundEven_iff (by norm_num)]
      exact Int.cast_le

end Optimization.Decimal
