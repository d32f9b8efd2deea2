import Optimization.Expression.Basic
import Optimization.Proofs.Powers
import Optimization.Proofs.Magnitudes
import Mathlib.Data.Rat.Floor

/-!
# Numbers by their places

Truth values, integers and floats lie at places on one extended line, and they are compared there.
Equality by value is therefore symmetric and transitive, for numbers and for the powers that are
the keys of an expression. It is not reflexive, since not-a-number lies nowhere.

* `same_iff`, `less_iff` : comparisons of numbers are those of their places;
* `isSignificant_eq` : a factor counts when its magnitude lies above the limit;
* `toFloat_eq` : reading a number as a float fails for integers beyond the floats only;
* `toInteger_of_place?` : the integer part of a float lies just below it, as far as it is positive;
* `Power.beq_iff` : equal powers are powers of one variable.
-/

namespace Optimization
open Decimal (place? exactValue? exactValue?_eq_some_iff Extended)

namespace Number

/-- The place of a number; not-a-number has none. -/
def place? : Number → Option Extended
  | truth b => some (.ofRat (if b then 1 else 0))
  | integer n => some (.ofRat n)
  | real x => Decimal.place? x

variable {a b : Number}

theorem place?_of_whole? {n : ℤ} (h : a.whole? = some n) : a.place? = some (.ofRat n) := by
  cases a with
  | truth b =>
    obtain rfl := Option.some.inj h
    cases b <;> simp [place?]
  | integer m =>
    obtain rfl := Option.some.inj h
    rfl
  | real x => cases h

/-- A float beside an integer is compared by its place. -/
theorem compareFloatInt_eq_map (x : Float) (n : ℤ) :
    compareFloatInt x n = (Decimal.place? x).map fun p => cmp p (.ofRat n) := by
  unfold compareFloatInt Decimal.place?
  cases Decimal.parts x with
  | notANumber => rfl
  | infinite negative => cases negative <;> simp [cmp, cmpUsing]
  | finite negative m e =>
    simp only [Option.map_some, Decimal.cmp_ofRat]
    rfl

/-- A float beside an integer, in a given order. -/
theorem compareFloatInt_eq_some_iff {x : Float} {n : ℤ} {o : Ordering} :
    compareFloatInt x n = some o ↔ ∃ p, Decimal.place? x = some p ∧ cmp p (.ofRat n) = o := by
  rw [compareFloatInt_eq_map, Option.map_eq_some_iff]

/-- **Numbers are equal when they lie at the same place.** -/
theorem same_iff : a.same b = true ↔ ∃ p, a.place? = some p ∧ b.place? = some p := by
  have hwhole : ∀ {x : Float} {b : Number} {n : ℤ}, b.whole? = some n →
      ((compareFloatInt x n == some .eq) = true ↔
        ∃ p, Decimal.place? x = some p ∧ b.place? = some p) := by
    intro x b n hn
    rw [beq_iff_eq, compareFloatInt_eq_some_iff, place?_of_whole? hn]
    simp only [cmp_eq_eq_iff, Option.some.injEq, @eq_comm _ (Extended.ofRat n)]
  have hwholes : ∀ {a b : Number} {m n : ℤ}, a.whole? = some m → b.whole? = some n →
      ((a.whole? == b.whole?) = true ↔ ∃ p, a.place? = some p ∧ b.place? = some p) := by
    intro a b m n hm hn
    rw [hm, hn, place?_of_whole? hm, place?_of_whole? hn]
    simp [@eq_comm _ n]
  cases a with
  | real x =>
    cases b with
    | real y => exact Decimal.beq_iff
    | _ => exact hwhole rfl
  | _ =>
    cases b with
    | real y => exact (hwhole rfl).trans (exists_congr fun p => and_comm)
    | _ => exact hwholes rfl rfl

/-- **A number lies below another one when its place does.** -/
theorem less_iff :
    a.less b = true ↔ ∃ p q, a.place? = some p ∧ b.place? = some q ∧ p < q := by
  have hleft : ∀ {x : Float} {b : Number} {n : ℤ}, b.whole? = some n →
      ((compareFloatInt x n == some .lt) = true ↔
        ∃ p q, Decimal.place? x = some p ∧ b.place? = some q ∧ p < q) := by
    intro x b n hn
    rw [beq_iff_eq, compareFloatInt_eq_some_iff, place?_of_whole? hn]
    simp [cmp_eq_lt_iff]
  have hright : ∀ {y : Float} {a : Number} {n : ℤ}, a.whole? = some n →
      ((compareFloatInt y n == some .gt) = true ↔
        ∃ p q, a.place? = some p ∧ Decimal.place? y = some q ∧ p < q) := by
    intro y a n hn
    rw [beq_iff_eq, compareFloatInt_eq_some_iff, place?_of_whole? hn]
    simp [cmp_eq_gt_iff]
  have hwholes : ∀ {a b : Number} {m n : ℤ}, a.whole? = some m → b.whole? = some n →
      (decide (a.whole?.getD 0 < b.whole?.getD 0) = true ↔
        ∃ p q, a.place? = some p ∧ b.place? = some q ∧ p < q) := by
    intro a b m n hm hn
    simp [hm, hn, place?_of_whole? hm, place?_of_whole? hn]
  cases a with
  | real x =>
    cases b with
    | real y =>
      show decide (x < y) = true ↔ _
      rw [decide_eq_true_eq]
      exact Decimal.lt_iff
    | _ => exact hleft rfl
  | _ =>
    cases b with
    | real y => exact hright rfl
    | _ => exact hwholes rfl rfl

theorem same_symm (h : a.same b = true) : b.same a = true := by
  obtain ⟨p, ha, hb⟩ := same_iff.1 h
  exact same_iff.2 ⟨p, hb, ha⟩

theorem same_trans {c : Number} (hab : a.same b = true) (hbc : b.same c = true) :
    a.same c = true := by
  obtain ⟨p, ha, hb⟩ := same_iff.1 hab
  obtain ⟨q, hb', hc⟩ := same_iff.1 hbc
  rw [hb] at hb'
  cases hb'
  exact same_iff.2 ⟨p, ha, hc⟩

/-! ### Magnitudes -/

/-- A number without its sign. -/
def magnitude : Number → Number
  | truth b => integer (if b then 1 else 0)
  | integer n => integer |n|
  | real x => real x.abs

/-- The limit up to which a magnitude counts as zero. -/
def limit : Number := real 1e-15

theorem exists_place?_limit : ∃ p, limit.place? = some p ∧ .ofRat 0 < p ∧ p < .ofRat 1 := by
  have hzero : (0.0 : Float) < 1e-15 := by decide
  have hone : (1e-15 : Float) < 1.0 := by decide
  obtain ⟨z, p, hz, hp, hzp⟩ := Decimal.lt_iff.1 hzero
  obtain ⟨p', o, hp', ho, hpo⟩ := Decimal.lt_iff.1 hone
  obtain rfl : p = p' := Option.some.inj (hp.symm.trans hp')
  obtain rfl := Option.some.inj (Decimal.place?_zero.symm.trans hz)
  obtain rfl := Option.some.inj (Decimal.place?_one.symm.trans ho)
  exact ⟨p, hp, hzp, hpo⟩

/-- An integer lies above the limit when it is not zero. -/
theorem limit_less_natural {n : ℤ} (hn : 0 ≤ n) : limit.less (integer n) = (n != 0) := by
  obtain ⟨p, hp, hzero, hone⟩ := exists_place?_limit
  have hless : limit.less (integer n) = true ↔ p < .ofRat n := by
    rw [less_iff, hp]
    simp [place?]
  rw [Bool.eq_iff_iff, hless, bne_iff_ne]
  constructor
  · rintro h rfl
    exact lt_asymm h (by simpa using hzero)
  · intro hne
    refine hone.trans_le (Decimal.ofRat_le_ofRat.2 ?_)
    exact_mod_cast show 1 ≤ n by omega

/-- **A factor counts when its magnitude lies above the limit.** -/
theorem isSignificant_eq (x : Number) : x.isSignificant = limit.less x.magnitude := by
  cases x with
  | truth b =>
    cases b with
    | true => exact (limit_less_natural Int.one_nonneg).symm
    | false => exact (limit_less_natural le_rfl).symm
  | integer n =>
    rw [magnitude, limit_less_natural (abs_nonneg n), Bool.eq_iff_iff]
    simp [isSignificant]
  | real x => rfl

/-- What is not a number does not count. -/
theorem place?_ne_none_of_isSignificant {x : Float} (h : (real x).isSignificant = true) :
    Decimal.place? x ≠ none := by
  intro hx
  rw [Decimal.place?_eq] at hx
  have habs : x.abs = Float.ofModel (.pack x.toModel.unpack.abs) := rfl
  rw [Decimal.eq_notANumber_of_place? hx] at habs
  have hcounts : x.abs > 1e-15 := of_decide_eq_true h
  obtain ⟨p, q, -, hq, -⟩ := Decimal.lt_iff.1 hcounts
  rw [habs, Decimal.place?_eq] at hq
  cases hq

/-- **A factor that counts lies somewhere, and not at zero.** -/
theorem exists_place?_of_isSignificant (h : a.isSignificant = true) :
    ∃ p, a.place? = some p ∧ p ≠ .ofRat 0 := by
  cases a with
  | truth b =>
    obtain rfl : b = true := h
    exact ⟨_, rfl, by simp⟩
  | integer n =>
    have hn : n ≠ 0 := by simpa [isSignificant] using h
    exact ⟨_, rfl, by simpa using hn⟩
  | real x =>
    obtain ⟨p, hp⟩ := Option.ne_none_iff_exists'.1 (place?_ne_none_of_isSignificant h)
    exact ⟨p, hp, fun hzero => place?_of_significant h (hzero ▸ hp)⟩

/-! ### Numbers as floats -/

/-- The float nearest to a number, an infinity for an integer beyond the floats. -/
def nearest : Number → Float
  | truth b => if b then 1.0 else 0.0
  | integer n => Decimal.nearestInt n
  | real x => x

/-- A number is no integer beyond the floats. -/
def Fits (x : Number) : Prop := ∀ n, x = integer n → (Decimal.nearestInt n).isInf = false

instance (x : Number) : Decidable x.Fits :=
  match x with
  | truth _ => .isTrue nofun
  | real _ => .isTrue nofun
  | integer n => decidable_of_iff ((Decimal.nearestInt n).isInf = false) (by simp [Fits])

theorem fits_real (x : Float) : (real x).Fits := nofun

/-- **Reading a number as a float fails for integers beyond the floats only.** -/
theorem toFloat_eq (x : Number) : x.toFloat = if x.Fits then .ok x.nearest else .error .tooLarge := by
  cases x with
  | truth b => exact (if_pos nofun).symm
  | real x => exact (if_pos nofun).symm
  | integer n =>
    have hfits : (integer n).Fits ↔ ¬(Decimal.nearestInt n).isInf = true := by simp [Fits]
    unfold toFloat floatOfInt nearest
    simp only [hfits]
    split_ifs <;> rfl

theorem toFloat_of_fits {x : Number} (h : x.Fits) : x.toFloat = .ok x.nearest := by
  rw [toFloat_eq, if_pos h]

theorem toFloat_of_not_fits {x : Number} (h : ¬x.Fits) : x.toFloat = .error .tooLarge := by
  rw [toFloat_eq, if_neg h]

end Number

/-! ### Integer parts -/

/-- The integer part of a magnitude is its floor. -/
theorem Decimal.truncated_eq (negative : Bool) (m : ℕ) (e : ℤ) :
    truncated negative m e = if negative then -⌊(m : ℚ) * 2 ^ e⌋ else ⌊(m : ℚ) * 2 ^ e⌋ := by
  have hsize : ((if e < 0 then m / 2 ^ e.natAbs else m * 2 ^ e.natAbs : ℕ) : ℤ) =
      ⌊(m : ℚ) * 2 ^ e⌋ := by
    split_ifs with he
    · have hexponent : (2 : ℚ) ^ e = ((2 ^ e.natAbs : ℕ) : ℚ)⁻¹ := by
        push_cast
        rw [← zpow_natCast, ← zpow_neg]
        congr 1
        omega
      rw [hexponent, ← div_eq_mul_inv]
      exact (Rat.floor_intCast_div_natCast m _).symm
    · have hexponent : (2 : ℚ) ^ e = ((2 ^ e.natAbs : ℕ) : ℚ) := by
        push_cast
        rw [← zpow_natCast]
        congr 1
        omega
      rw [hexponent, ← Nat.cast_mul, Int.floor_natCast]
  rw [← hsize]
  rfl

namespace Number

variable {x : Float} {u : ℚ}

theorem toInteger_real (x : Float) :
    toInteger (real x) = match Decimal.parts x with
      | .notANumber => .error .nanToInteger
      | .infinite _ => .error .infinityToInteger
      | .finite negative mantissa exponent =>
        .ok (Decimal.truncated negative mantissa exponent) := rfl

/-- The integer part of a float, as far as it lies above zero. -/
theorem toInteger_of_place? (h : Decimal.place? x = some (.ofRat u)) :
    ∃ n, toInteger (real x) = .ok n ∧ max 0 n = max 0 ⌊u⌋ := by
  unfold Decimal.place? at h
  cases hparts : Decimal.parts x with
  | notANumber =>
    rw [hparts] at h
    cases h
  | infinite negative =>
    rw [hparts] at h
    cases negative <;> simp [Extended.ofRat] at h
  | finite negative m e =>
    rw [hparts] at h
    obtain rfl : Decimal.scaled negative m e = u := Decimal.ofRat_inj.1 (Option.some.inj h)
    refine ⟨Decimal.truncated negative m e, by rw [toInteger_real, hparts], ?_⟩
    have hsize : (0 : ℚ) ≤ m * 2 ^ e := by positivity
    rw [Decimal.truncated_eq]
    cases negative with
    | false => rfl
    | true =>
      have hfloor : 0 ≤ ⌊(m : ℚ) * 2 ^ e⌋ := Int.floor_nonneg.2 hsize
      have hneg : ⌊Decimal.scaled true m e⌋ ≤ 0 := by
        have hle : Decimal.scaled true m e ≤ 0 := neg_nonpos.2 hsize
        exact (Int.floor_le_floor hle).trans_eq Int.floor_zero
      rw [if_pos rfl, max_eq_left (by omega), max_eq_left hneg]

/-- An infinity has no integer part. -/
theorem toInteger_of_infinite (h : Decimal.place? x = some ⊥ ∨ Decimal.place? x = some ⊤) :
    toInteger (real x) = .error .infinityToInteger := by
  unfold Decimal.place? at h
  cases hparts : Decimal.parts x with
  | notANumber => simp [hparts] at h
  | infinite negative =>
    rw [toInteger_real, hparts]
  | finite negative m e => simp [hparts, Extended.ofRat] at h

end Number

/-! ### Scalars and powers -/

namespace Scalar

variable {x y z : Scalar}

theorem same_symm (h : x.same y = true) : y.same x = true := by
  cases x <;> cases y <;> first | rfl | cases h | skip
  · exact Number.same_symm h
  · exact beq_iff_eq.2 (beq_iff_eq.1 h).symm

theorem same_trans (hxy : x.same y = true) (hyz : y.same z = true) : x.same z = true := by
  cases x <;> cases y <;> first | cases hxy | skip
  · exact hyz
  · cases z <;> first | cases hyz | skip
    exact Number.same_trans hxy hyz
  · obtain rfl := beq_iff_eq.1 hxy
    exact hyz

end Scalar

namespace Power

/-- **Equal powers are powers of one variable, with exponents of one value.** -/
theorem beq_iff {p q : Power} :
    (p == q) = true ↔ p.var = q.var ∧ p.exponent.same q.exponent = true := by
  show (p.var == q.var && p.exponent.same q.exponent) = true ↔ _
  rw [Bool.and_eq_true, beq_iff_eq]

instance : PartialEquivBEq Power where
  symm h := by
    obtain ⟨hvar, hexponent⟩ := beq_iff.1 h
    exact beq_iff.2 ⟨hvar.symm, Scalar.same_symm hexponent⟩
  trans hab hbc := by
    obtain ⟨hvar, hexponent⟩ := beq_iff.1 hab
    obtain ⟨hvar', hexponent'⟩ := beq_iff.1 hbc
    exact beq_iff.2 ⟨hvar.trans hvar', Scalar.same_trans hexponent hexponent'⟩

end Power

end Optimization
