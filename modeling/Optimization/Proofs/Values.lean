import Optimization.Proofs.Feasibility
import Optimization.Proofs.Watching
import Mathlib.Tactic.Ring
import Mathlib.Tactic.FieldSimp

/-!
# Values of expressions

An assignment gives a rational to each variable, and with it a value to each power, expression and
operand. Operations on expressions do with values what their names say, as far as no operation
rounds and no factor is left out that is not zero.

* `Number.value?`, `Power.value`, `Expression.value`, `Operand.value` : what things stand for;
* `sumTerms_put` : a new factor changes the sum of terms by the difference to the old one;
* `gives_watchMerge` : merging terms adds their sums;
* `gives_watchCombine`, `gives_watchScale` and so on : the operations on expressions.

Exponents count by their integer parts, so that equal exponents count alike.
-/

namespace Optimization
open Decimal (Operation exactValue? exactValue?_eq_some_iff)
open Watched (Gives)

/-! ### Numbers -/

namespace Number

/-- The rational that a number stands for, nothing for an infinity and for what is not a number. -/
def value? : Number → Option ℚ
  | truth b => some (if b then 1 else 0)
  | integer n => some n
  | real x => exactValue? x

/-- The rational that a number stands for; what is not finite counts as zero. -/
def value (x : Number) : ℚ := x.value?.getD 0

variable {x y z : Number} {q r : ℚ}

theorem value_of_value? (h : x.value? = some q) : x.value = q := by
  rw [value, h, Option.getD_some]

theorem value?_of_whole? {n : ℤ} (h : x.whole? = some n) : x.value? = some (n : ℚ) := by
  cases x with
  | truth b =>
    cases b <;> cases h <;> simp [value?]
  | integer m =>
    cases h
    rfl
  | real x => cases h

/-- A float beside an integer is equal to it by value. -/
theorem value?_of_compareFloatInt {u : Float} {n : Option ℤ}
    (h : (n.bind (compareFloatInt u) == some .eq) = true) :
    ∃ m, n = some m ∧ (real u).value? = some (m : ℚ) := by
  obtain ⟨m, hm, heq⟩ := Option.bind_eq_some_iff.1 (beq_iff_eq.1 h)
  exact ⟨m, hm, Expression.compareFloatInt_eq.1 heq⟩

/-- Equal numbers stand for the same. -/
theorem value?_of_same (h : x.same y = true) : x.value? = y.value? := by
  cases x with
  | real u =>
    cases y with
    | real v => exact Decimal.exactValue?_congr (place?_eq_of_beq h)
    | _ =>
      obtain ⟨m, hm, hu⟩ := value?_of_compareFloatInt h
      rw [hu, value?_of_whole? hm]
  | _ =>
    cases y with
    | real v =>
      obtain ⟨m, hm, hv⟩ := value?_of_compareFloatInt h
      rw [hv, value?_of_whole? hm]
    | _ =>
      have hwhole := beq_iff_eq.1 h
      rw [value?_of_whole? rfl, value?_of_whole? (hwhole.symm.trans rfl)]

/-- What is not true is zero. -/
theorem value?_of_isTrue (h : x.isTrue = false) : x.value? = some 0 := by
  cases x with
  | truth b =>
    obtain rfl : b = false := h
    rfl
  | integer n =>
    obtain rfl : n = 0 := by simpa [isTrue] using h
    rfl
  | real u =>
    have hzero : (u == 0.0) = true := by simpa [isTrue] using h
    rw [value?, Decimal.exactValue?_congr (place?_eq_of_beq hzero)]
    exact Decimal.exactValue?_zero

/-- Without loss, a finite number becomes the float at its value. -/
theorem gives_watchFloat (h : x.value? = some q) :
    Gives x.watchFloat fun y => exactValue? y = some q := by
  cases x with
  | truth b =>
    obtain rfl : (if b then 1 else 0) = q := Option.some.inj h
    cases b
    · exact .of rfl Decimal.exactValue?_zero
    · exact .of rfl Decimal.exactValue?_one
  | integer n =>
    have hideal : (Operation.ofInteger n).ideal? = some q := h
    refine (Gives.perform hideal).bind fun y hy => ?_
    rw [Decimal.isInf_of_exactValue? hy.2]
    exact .pure hy.2
  | real u => exact .of rfl h

theorem gives_watchFloats {f : Float → Float → Watched Number} {P : Number → Prop}
    (hx : x.value? = some q) (hy : y.value? = some r)
    (hf : ∀ u v, exactValue? u = some q → exactValue? v = some r → Gives (f u v) P) :
    Gives (watchFloats f x y) P :=
  (gives_watchFloat hx).bind fun u hu => (gives_watchFloat hy).bind fun v hv => hf u v hu hv

theorem gives_real {o : Operation} (h : o.ideal? = some q) :
    Gives (do pure (real (← Watched.perform o))) fun z => z.value? = some q :=
  (Gives.perform h).bind fun _ hu => Gives.pure hu.2

/-- An operation that is the same one on integers, on floats and on rationals. -/
theorem gives_watchLift {onInts : ℤ → ℤ → ℤ} {onFloats : Float → Float → Operation}
    {op : ℚ → ℚ → ℚ} (hints : ∀ m n : ℤ, ((onInts m n : ℤ) : ℚ) = op m n)
    (hfloats : ∀ {u v q r}, exactValue? u = some q → exactValue? v = some r →
      (onFloats u v).ideal? = some (op q r))
    (hx : x.value? = some q) (hy : y.value? = some r) :
    Gives (watchLift onInts onFloats x y) fun z => z.value? = some (op q r) := by
  have hreal := gives_watchFloats hx hy fun u v hu hv => gives_real (hfloats hu hv)
  unfold watchLift
  cases hm : x.whole? with
  | none => exact hreal
  | some m =>
    cases hn : y.whole? with
    | none => exact hreal
    | some n =>
      rw [value?_of_whole? hm, Option.some.injEq] at hx
      rw [value?_of_whole? hn, Option.some.injEq] at hy
      refine Gives.pure ?_
      rw [value?, hints, hx, hy]

theorem gives_watchDivideFloats {u v : Float} (hu : exactValue? u = some q)
    (hv : exactValue? v = some r) (hr : r ≠ 0) :
    Gives (watchDivideFloats u v) fun z => z.value? = some (q / r) := by
  unfold watchDivideFloats
  rw [if_neg (by simpa [Decimal.beq_zero hv] using hr)]
  exact gives_real (Operation.ideal?_div hu hv hr)

theorem gives_watchDivideIntegers {m n : ℤ} (hn : n ≠ 0) :
    Gives (watchDivideIntegers m n) fun u => exactValue? u = some (m / n : ℚ) := by
  have hideal : (Operation.ofRatio m n).ideal? = some (m / n : ℚ) := by
    simp [Operation.ideal?, hn]
  unfold watchDivideIntegers
  rw [if_neg hn]
  refine (Gives.perform hideal).bind fun u hu => ?_
  rw [Decimal.isInf_of_exactValue? hu.2]
  exact .pure hu.2

/-- A quotient by something other than zero. -/
theorem gives_watchDiv (hx : x.value? = some q) (hy : y.value? = some r) (hr : r ≠ 0) :
    Gives (watchDiv x y) fun z => z.value? = some (q / r) := by
  have hreal := gives_watchFloats hx hy fun u v hu hv => gives_watchDivideFloats hu hv hr
  unfold watchDiv
  cases hm : x.whole? with
  | none => exact hreal
  | some m =>
    cases hn : y.whole? with
    | none => exact hreal
    | some n =>
      rw [value?_of_whole? hm, Option.some.injEq] at hx
      rw [value?_of_whole? hn, Option.some.injEq] at hy
      subst hx hy
      exact (gives_watchDivideIntegers (Int.cast_ne_zero.1 hr)).bind fun _ hu => Gives.pure hu

theorem value?_neg (h : x.value? = some q) : x.neg.value? = some (-q) := by
  cases x with
  | truth b =>
    obtain rfl : (if b then 1 else 0) = q := Option.some.inj h
    cases b <;> simp [neg, value?]
  | integer n =>
    obtain rfl : (n : ℚ) = q := Option.some.inj h
    simp [neg, value?]
  | real u => exact Decimal.exactValue?_neg h

end Number

/-! ### Powers and sums of terms -/

/-- The rational that a scalar stands for. -/
def Scalar.value? : Scalar → Option ℚ
  | .number x => x.value?
  | _ => none

theorem Scalar.value?_of_same {x y : Scalar} (h : x.same y = true) : x.value? = y.value? := by
  cases x <;> cases y <;> first | rfl | cases h | exact Number.value?_of_same h

/-- The exponent of a power as an integer. -/
def Power.degree (p : Power) : ℤ := ⌊p.exponent.value?.getD 0⌋

/-- The value of a power. -/
def Power.value (p : Power) (a : Variable → ℚ) : ℚ := a p.var ^ p.degree

/-- Equal powers have equal values. -/
theorem Power.value_of_beq {p q : Power} (h : (p == q) = true) (a : Variable → ℚ) :
    p.value a = q.value a := by
  have hparts : (p.var == q.var) = true ∧ p.exponent.same q.exponent = true := by
    rw [← Bool.and_eq_true]
    exact h
  have hvar : p.var = q.var := by simpa using hparts.1
  rw [value, value, degree, degree, hvar, Scalar.value?_of_same hparts.2]

namespace Expression

/-- The sum of terms. -/
def sumTerms (xs : List (Power × Number)) (a : Variable → ℚ) : ℚ :=
  (xs.map fun t => t.2.value * t.1.value a).sum

/-- The value of an expression: its constant and its terms. -/
def value (e : Expression) (a : Variable → ℚ) : ℚ :=
  Limits.exact e.constant + sumTerms e.factors a

/-- All factors are finite. -/
def FiniteFactors (xs : List (Power × Number)) : Prop :=
  ∀ x ∈ xs.map Prod.snd, ∃ q, x.value? = some q

/-- The constant and all factors are finite. -/
structure IsFinite (e : Expression) : Prop where
  constant : ∃ q, exactValue? e.constant = some q
  factors : FiniteFactors e.factors

section

variable {p : Power} {y : Number} {xs ys : List (Power × Number)} {a : Variable → ℚ} {q r s : ℚ}

@[simp] theorem sumTerms_nil (a : Variable → ℚ) : sumTerms [] a = 0 := rfl

@[simp] theorem sumTerms_cons (t : Power × Number) (xs : List (Power × Number))
    (a : Variable → ℚ) : sumTerms (t :: xs) a = t.2.value * t.1.value a + sumTerms xs a := by
  simp [sumTerms]

/-- The value of the factor of a power, zero if there is none. -/
def factorOf (p : Power) (xs : List (Power × Number)) : ℚ := ((xs.lookup p).map Number.value).getD 0

/-- **A new factor changes the sum of terms by the difference to the old one.** -/
theorem sumTerms_put (p : Power) (y : Number) (xs : List (Power × Number)) (a : Variable → ℚ) :
    sumTerms (Keyed.put p y xs) a = sumTerms xs a + (y.value - factorOf p xs) * p.value a := by
  induction xs with
  | nil => simp [factorOf]
  | cons t xs ih =>
    obtain ⟨p', x⟩ := t
    cases hp : p == p' with
    | true =>
      simp only [Keyed.put, hp, factorOf, List.lookup_cons, sumTerms_cons, Option.map_some,
        Option.getD_some, if_true, Power.value_of_beq hp a]
      ring
    | false =>
      have hfactor : factorOf p ((p', x) :: xs) = factorOf p xs := by
        simp [factorOf, List.lookup_cons, hp]
      simp only [Keyed.put, hp, sumTerms_cons, ih, hfactor, Bool.false_eq_true, if_false]
      ring

/-- Leaving out zeros does not change the sum of terms. -/
theorem sumTerms_clean {e : Expression}
    (h : ∀ x ∈ e.factors.map Prod.snd, x.isTrue = true → x.isSignificant = true)
    (a : Variable → ℚ) : sumTerms e.clean.factors a = sumTerms e.factors a := by
  obtain ⟨factors, constant⟩ := e
  simp only [clean] at *
  induction factors with
  | nil => rfl
  | cons t xs ih =>
    have ih := ih fun x hx => h x (List.mem_cons_of_mem _ hx)
    rw [List.filter_cons, sumTerms_cons]
    split_ifs with ht
    · rw [sumTerms_cons, ih]
    · have hzero : t.2.isTrue = false := by
        by_contra htrue
        exact ht (h t.2 List.mem_cons_self (by simpa using htrue))
      rw [ih, Number.value_of_value? (Number.value?_of_isTrue hzero)]
      ring

theorem FiniteFactors.put (h : FiniteFactors xs) (hy : y.value? = some q) (p : Power) :
    FiniteFactors (Keyed.put p y xs) := by
  induction xs with
  | nil => simpa [FiniteFactors] using ⟨q, hy⟩
  | cons t xs ih =>
    obtain ⟨p', x⟩ := t
    simp only [FiniteFactors, List.map_cons, List.forall_mem_cons] at h ih
    cases hp : p == p'
    · simpa [FiniteFactors, Keyed.put, hp, h.1] using ih h.2
    · simpa [FiniteFactors, Keyed.put, hp, hy] using h.2

theorem FiniteFactors.lookup (h : FiniteFactors xs) (hp : xs.lookup p = some y) :
    ∃ q, y.value? = some q := by
  induction xs with
  | nil => cases hp
  | cons t xs ih =>
    simp only [FiniteFactors, List.map_cons, List.forall_mem_cons] at h ih
    rw [List.lookup_cons] at hp
    split at hp
    · obtain rfl : t.2 = y := Option.some.inj hp
      exact h.1
    · exact ih h.2 hp

theorem FiniteFactors.clean {e : Expression} (h : FiniteFactors e.factors) :
    FiniteFactors e.clean.factors :=
  fun x hx => h x ((List.filter_sublist.map Prod.snd).mem hx)

/-! ### Operations -/

theorem gives_watchAccumulate {x : Float} (hxs : FiniteFactors xs) (hx : exactValue? x = some q)
    (p : Power) : Gives (watchAccumulate xs p x) fun ys =>
      FiniteFactors ys ∧ ∀ a, sumTerms ys a = sumTerms xs a + q * p.value a := by
  have hput : ∀ old, exactValue? old = some (factorOf p xs) →
      Gives (do pure (Keyed.put p (.real (← Watched.perform (.add old x))) xs)) fun ys =>
        FiniteFactors ys ∧ ∀ a, sumTerms ys a = sumTerms xs a + q * p.value a := by
    intro old hold
    refine (Gives.perform (Operation.ideal?_add hold hx)).bind fun new hnew => ?_
    have hvalue : (Number.real new).value? = some (factorOf p xs + q) := hnew.2
    refine .pure ⟨hxs.put hvalue p, fun a => ?_⟩
    rw [sumTerms_put, Number.value_of_value? hvalue]
    ring
  unfold watchAccumulate
  unfold factorOf at hput
  cases hp : xs.lookup p with
  | none =>
    rw [hp] at hput
    exact hput 0.0 Decimal.exactValue?_zero
  | some y =>
    obtain ⟨r, hr⟩ := hxs.lookup hp
    rw [hp, Option.map_some, Option.getD_some, Number.value_of_value? hr] at hput
    exact (Number.gives_watchFloat hr).bind hput

/-- **Merging terms adds a multiple of their sum.** -/
theorem gives_watchMerge {sign : Float} (hsign : exactValue? sign = some s)
    (hxs : FiniteFactors xs) (hys : FiniteFactors ys) : Gives (watchMerge sign xs ys) fun zs =>
      FiniteFactors zs ∧ ∀ a, sumTerms zs a = sumTerms xs a + s * sumTerms ys a := by
  induction ys generalizing xs with
  | nil => exact .pure ⟨hxs, fun a => by simp⟩
  | cons t ys ih =>
    obtain ⟨p, y⟩ := t
    simp only [FiniteFactors, List.map_cons, List.forall_mem_cons] at hys
    obtain ⟨⟨r, hr⟩, hys⟩ := hys
    have hstep : Gives (do watchAccumulate xs p (← Watched.perform (.mul sign (← y.watchFloat))))
        fun zs => FiniteFactors zs ∧ ∀ a, sumTerms zs a = sumTerms xs a + s * r * p.value a :=
      (Number.gives_watchFloat hr).bind fun v hv =>
        (Gives.perform (Operation.ideal?_mul hsign hv)).bind fun w hw =>
          gives_watchAccumulate hxs hw.2 p
    refine hstep.bind fun zs hzs => (ih hzs.1 hys).mono fun zs' hzs' => ⟨hzs'.1, fun a => ?_⟩
    rw [hzs'.2, hzs.2, sumTerms_cons, Number.value_of_value? hr]
    ring

/-- An expression stands for a function of assignments. -/
structure Means (e : Expression) (f : (Variable → ℚ) → ℚ) : Prop where
  finite : e.IsFinite
  value : ∀ a, e.value a = f a

variable {e e' : Expression} {f g : (Variable → ℚ) → ℚ} {x : Number}

theorem exact_of_exactValue? {c : Float} (h : exactValue? c = some q) : Limits.exact c = q := by
  rw [Limits.exact, h, Option.getD_some]

theorem means_ofVariable (v : Variable) : (ofVariable v).Means fun a => a v where
  finite := by
    refine ⟨⟨0, Decimal.exactValue?_zero⟩, fun x hx => ?_⟩
    obtain rfl : x = .real 1.0 := by simpa [ofVariable] using hx
    exact ⟨1, Decimal.exactValue?_one⟩
  value a := by
    have hdegree : (Power.first v).degree = 1 := by
      simp [Power.degree, Power.first, Scalar.value?, Number.one, Number.value?]
    rw [value, ofVariable, exact_of_exactValue? Decimal.exactValue?_zero, sumTerms_cons,
      sumTerms_nil, Number.value_of_value? (x := .real 1.0) Decimal.exactValue?_one, Power.value,
      hdegree, zpow_one]
    simp [Power.first]

theorem means_ofFloat {c : Float} (h : exactValue? c = some q) : (ofFloat c).Means fun _ => q where
  finite := ⟨⟨q, h⟩, by simp [FiniteFactors]⟩
  value a := by simp [value, exact_of_exactValue? h]

/-- The expression of a power that is accepted. -/
theorem means_power {v : Variable} {n : ℤ} (hn : x.whole? = some n) (h : 1 ≤ n) :
    ∃ e, power v (.number x) = .ok e ∧ e.Means fun a => a v ^ n := by
  have hpower : power v (.number x) = .ok ⟨[(⟨v, .number x⟩, .real 1.0)], 0.0⟩ := by
    simp only [power, hn]
    rw [if_neg (by omega)]
    rfl
  refine ⟨_, hpower, ⟨⟨0, Decimal.exactValue?_zero⟩, fun y hy => ?_⟩, fun a => ?_⟩
  · obtain rfl : y = .real 1.0 := by simpa using hy
    exact ⟨1, Decimal.exactValue?_one⟩
  · have hdegree : (Power.mk v (.number x)).degree = n := by
      simp [Power.degree, Scalar.value?, Number.value?_of_whole? hn]
    rw [value, exact_of_exactValue? Decimal.exactValue?_zero, sumTerms_cons, sumTerms_nil,
      Number.value_of_value? (x := .real 1.0) Decimal.exactValue?_one, Power.value, hdegree]
    ring

/-- Leaving out the terms that count as zero changes no value. -/
theorem gives_watchClean (h : e.Means f) : Gives e.watchClean (·.Means f) := by
  refine (Gives.note _).bind fun _ hcounts => ?_
  refine .pure ⟨⟨h.finite.constant, h.finite.factors.clean⟩, fun a => ?_⟩
  rw [value, sumTerms_clean hcounts, clean_constant]
  exact h.value a

/-- The left expression plus a multiple of the right one. -/
theorem gives_watchCombine {sign : Float} (hsign : exactValue? sign = some s) (he : e.Means f)
    (he' : e'.Means g) : Gives (watchCombine sign e e') (·.Means fun a => f a + s * g a) := by
  obtain ⟨q, hq⟩ := he.finite.constant
  obtain ⟨r, hr⟩ := he'.finite.constant
  refine (gives_watchMerge hsign he.finite.factors he'.finite.factors).bind fun zs hzs => ?_
  refine (Gives.perform (Operation.ideal?_mul hsign hr)).bind fun c hc => ?_
  refine (Gives.perform (Operation.ideal?_add hq hc.2)).bind fun d hd => ?_
  refine gives_watchClean ⟨⟨⟨_, hd.2⟩, hzs.1⟩, fun a => ?_⟩
  rw [← he.value a, ← he'.value a, value, value, value, exact_of_exactValue? hd.2,
    exact_of_exactValue? hq, exact_of_exactValue? hr, hzs.2]
  ring

/-- An expression plus a multiple of a number. -/
theorem gives_watchShift {sign : Float} (hsign : exactValue? sign = some s) (he : e.Means f)
    (hx : x.value? = some q) : Gives (watchShift sign e x) (·.Means fun a => f a + s * q) := by
  obtain ⟨r, hr⟩ := he.finite.constant
  refine (Number.gives_watchFloat hx).bind fun y hy => ?_
  refine (Gives.perform (Operation.ideal?_mul hsign hy)).bind fun c hc => ?_
  refine (Gives.perform (Operation.ideal?_add hr hc.2)).bind fun d hd => ?_
  refine .pure ⟨⟨⟨_, hd.2⟩, he.finite.factors⟩, fun a => ?_⟩
  rw [← he.value a, value, value, exact_of_exactValue? hd.2, exact_of_exactValue? hr]
  ring

/-- The sum of terms with scaled factors. -/
theorem sumTerms_of_scaled
    (h : List.Forall₂ (fun t z => z.1 = t.1 ∧ z.2.value? = some (t.2.value * s)) xs ys) :
    FiniteFactors ys ∧ ∀ a, sumTerms ys a = sumTerms xs a * s := by
  induction h with
  | nil => simp [FiniteFactors]
  | @cons t z xs ys hz _ ih =>
    obtain ⟨p, y⟩ := z
    obtain ⟨rfl, hy⟩ := hz
    refine ⟨?_, fun a => ?_⟩
    · simp only [FiniteFactors, List.map_cons, List.forall_mem_cons]
      exact ⟨⟨_, hy⟩, ih.1⟩
    · rw [sumTerms_cons, sumTerms_cons, ih.2, Number.value_of_value? hy]
      ring

/-- A multiple of an expression. -/
theorem gives_watchScaleFloat {c : Float} (hc : exactValue? c = some s) (he : e.Means f) :
    Gives (watchScaleFloat e c) (·.Means fun a => f a * s) := by
  obtain ⟨q, hq⟩ := he.finite.constant
  refine Gives.bind (Gives.mapM (R := fun t z => z.1 = t.1 ∧ z.2.value? = some (t.2.value * s))
    fun t ht => ?_) fun zs hzs => ?_
  · obtain ⟨r, hr⟩ := he.finite.factors t.2 (List.mem_map_of_mem ht)
    refine (Number.gives_watchFloat hr).bind fun v hv => ?_
    refine (Gives.perform (Operation.ideal?_mul hv hc)).bind fun w hw => .pure ⟨rfl, ?_⟩
    rw [Number.value_of_value? hr]
    exact hw.2
  · obtain ⟨hfinite, hsum⟩ := sumTerms_of_scaled hzs
    refine (Gives.perform (Operation.ideal?_mul hq hc)).bind fun d hd => ?_
    refine gives_watchClean ⟨⟨⟨_, hd.2⟩, hfinite⟩, fun a => ?_⟩
    rw [← he.value a, value, value, exact_of_exactValue? hd.2, exact_of_exactValue? hq, hsum]
    ring

theorem gives_watchScale (he : e.Means f) (hx : x.value? = some q) :
    Gives (watchScale e x) (·.Means fun a => f a * q) :=
  (Number.gives_watchFloat hx).bind fun _ hy => gives_watchScaleFloat hy he

theorem gives_watchDivide (he : e.Means f) (hx : x.value? = some q) (hq : q ≠ 0) :
    Gives (watchDivide e x) (·.Means fun a => f a / q) := by
  refine (Number.gives_watchFloat hx).bind fun y hy => ?_
  rw [if_neg (by simpa [Decimal.beq_zero hy] using hq)]
  have hideal := Operation.ideal?_div Decimal.exactValue?_one hy hq
  refine (Gives.perform hideal).bind fun z hz => ?_
  refine (gives_watchScaleFloat hz.2 he).mono fun e' he' => ⟨he'.finite, fun a => ?_⟩
  rw [he'.value]
  ring

theorem gives_watchNegate (he : e.Means f) : Gives (watchNegate e) (·.Means fun a => -f a) := by
  refine (gives_watchScaleFloat Decimal.exactValue?_negOne he).mono fun e' he' =>
    ⟨he'.finite, fun a => ?_⟩
  rw [he'.value]
  ring

end

end Expression

end Optimization
