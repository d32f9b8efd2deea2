import Optimization.Proofs.Values

/-!
# The algebra of expressions

Expression trees are built from variables, powers of variables, finite numbers and finite
expressions by sums, differences, negatives, multiples and quotients. Their evaluation merges terms,
leaves out zeros and takes different ways for variables, expressions and numbers on either side; the
value of what comes out is the ordinary value of the tree, whatever the variables are.

* `Formula.worth` : the ordinary value of a tree;
* `Formula.Algebraic` : the trees of the algebra;
* `Operand.Means` : what an operand stands for;
* `Operand.gives_add`, `Operand.gives_mul` and so on : one operation on operands;
* `Formula.eval_sound` : the whole.
-/

namespace Optimization
open Decimal (Operation exactValue?)
open Watched (Gives)

/-! ### Operands -/

namespace Operand

/-- The operand is a number. -/
def isNumber : Operand → Bool
  | number _ => true
  | _ => false

/-- The value of a number, a variable or an expression; other operands have none. -/
def value : Operand → (Variable → ℚ) → ℚ
  | number x, _ => x.value
  | decision v, a => a v
  | expression e, a => e.value a
  | _, _ => 0

/-- What an operand stands for: a finite number for a rational, a variable or a finite expression
for a function of assignments. The truth value tells the numbers. -/
inductive Means : Operand → Bool → ((Variable → ℚ) → ℚ) → Prop
  | number {x : Number} {q : ℚ} (h : x.value? = some q) : Means (.number x) true fun _ => q
  | linear {x : Operand} {e : Expression} {f : (Variable → ℚ) → ℚ} (hx : x.linear? = some e)
    (h : e.Means f) : Means x false f

variable {a b : Operand} {s t : Bool} {f g : (Variable → ℚ) → ℚ}

theorem Means.congr (h : a.Means s f) (hfg : ∀ v, f v = g v) : a.Means s g := by
  obtain rfl : f = g := funext hfg
  exact h

theorem means_expression {e : Expression} (h : e.Means f) : (expression e).Means false f :=
  .linear rfl h

theorem means_decision (v : Variable) : (decision v).Means false fun a => a v :=
  .linear rfl (Expression.means_ofVariable v)

/-- Arithmetic of a variable or an expression with something. -/
theorem watchCombine_left {e : Expression} (h : a.linear? = some e) (op : Operator) (b : Operand) :
    watchCombine op a b =
      match op with
      | .add => watchTogether 1.0 .add e b
      | .sub => watchTogether (-1.0) .sub e b
      | .mul => watchScaleBy e b
      | .div => watchDivide a b
      | .pow => .of (raise a b) := by
  cases op <;> simp only [watchCombine, h]

/-- Arithmetic of a number with a variable or an expression. -/
theorem watchCombine_right {e : Expression} (x : Number) (h : b.linear? = some e) (op : Operator) :
    watchCombine op (.number x) b =
      match op with
      | .add => watchReflected (.number x) b e
      | .sub => do watchTogether 1.0 .add (← e.watchNegate) (.number x)
      | .mul => watchScaleBy e (.number x)
      | .div => watchDivide (.number x) b
      | .pow => .of (raise (.number x) b) := by
  have hnumber : (number x).linear? = none := rfl
  cases op <;> simp only [watchCombine, hnumber, h]

/-- Something times a sign, added to an expression. -/
theorem gives_watchTogether {sign : Float} {c : ℚ} {e : Expression} (op : Operator)
    (hsign : exactValue? sign = some c) (he : e.Means f) (hb : b.Means t g) :
    Gives (watchTogether sign op e b) (·.Means false fun v => f v + c * g v) := by
  unfold watchTogether
  cases hb with
  | number hx =>
    exact (Expression.gives_watchShift hsign he hx).bind fun _ h => .pure (means_expression h)
  | linear hb hg =>
    simp only [hb]
    exact (Expression.gives_watchCombine hsign he hg).bind fun _ h => .pure (means_expression h)

/-- A sum stands for the sum. -/
theorem gives_add (ha : a.Means s f) (hb : b.Means t g) :
    Gives (watchCombine .add a b) (·.Means (s && t) fun v => f v + g v) := by
  have hone := Decimal.exactValue?_one
  cases ha with
  | number hx =>
    cases hb with
    | number hy =>
      exact (Number.gives_watchLift Int.cast_add Operation.ideal?_add hx hy).bind fun z hz =>
        .pure (.number hz)
    | linear hb hg =>
      rw [watchCombine_right _ hb]
      refine (Expression.gives_watchShift hone hg hx).bind fun z hz => ?_
      exact .pure ((means_expression hz).congr fun v => by ring)
  | linear ha hf =>
    rw [watchCombine_left ha]
    exact (gives_watchTogether .add hone hf hb).mono fun z hz => hz.congr fun v => by ring

/-- A difference stands for the difference. -/
theorem gives_sub (ha : a.Means s f) (hb : b.Means t g) :
    Gives (watchCombine .sub a b) (·.Means (s && t) fun v => f v - g v) := by
  cases ha with
  | number hx =>
    cases hb with
    | number hy =>
      exact (Number.gives_watchLift Int.cast_sub Operation.ideal?_sub hx hy).bind fun z hz =>
        .pure (.number hz)
    | linear hb hg =>
      -- the expression on the right is negated first
      rw [watchCombine_right _ hb]
      refine (Expression.gives_watchNegate hg).bind fun e he => ?_
      refine (gives_watchTogether .add Decimal.exactValue?_one he (.number hx)).mono fun z hz => ?_
      exact hz.congr fun v => by ring
  | linear ha hf =>
    rw [watchCombine_left ha]
    refine (gives_watchTogether .sub Decimal.exactValue?_negOne hf hb).mono fun z hz => ?_
    exact hz.congr fun v => by ring

/-- A product, one side of which is a number, stands for the product. -/
theorem gives_mul (ha : a.Means s f) (hb : b.Means t g) (h : s = true ∨ t = true) :
    Gives (watchCombine .mul a b) (·.Means (s && t) fun v => f v * g v) := by
  cases ha with
  | number hx =>
    cases hb with
    | number hy =>
      exact (Number.gives_watchLift Int.cast_mul Operation.ideal?_mul hx hy).bind fun z hz =>
        .pure (.number hz)
    | linear hb hg =>
      rw [watchCombine_right _ hb]
      refine (Expression.gives_watchScale hg hx).bind fun z hz => ?_
      exact .pure ((means_expression hz).congr fun v => by ring)
  | linear ha hf =>
    cases hb with
    | number hy =>
      rw [watchCombine_left ha]
      exact (Expression.gives_watchScale hf hy).bind fun z hz => .pure (means_expression hz)
    | linear hb hg => simp at h

/-- A quotient by a number other than zero stands for the quotient. -/
theorem gives_div (ha : a.Means s f) (hb : b.Means true g) (hg : ∀ v, g v ≠ 0) :
    Gives (watchCombine .div a b) (·.Means s fun v => f v / g v) := by
  cases hb with
  | @number y r hy =>
    have hr : r ≠ 0 := hg fun _ => 0
    cases ha with
    | number hx =>
      exact (Number.gives_watchDiv hx hy hr).bind fun z hz => .pure (.number hz)
    | linear ha hf =>
      rw [watchCombine_left ha]
      simp only [watchDivide, ha]
      exact (Expression.gives_watchDivide hf hy hr).bind fun z hz => .pure (means_expression hz)

/-- A negative stands for the negative. -/
theorem gives_negate (ha : a.Means s f) : Gives a.watchNegate (·.Means s fun v => -f v) := by
  cases ha with
  | number hx => exact .of rfl (.number (Number.value?_neg hx))
  | linear ha hf =>
    simp only [watchNegate, ha]
    exact (Expression.gives_watchNegate hf).bind fun z hz => .pure (means_expression hz)

/-- A power of a variable stands for the power. -/
theorem gives_power {v : Variable} {x : Number} {n : ℤ} (hn : x.whole? = some n) (h : 1 ≤ n) :
    Gives (watchCombine .pow (decision v) (.number x)) (·.Means false fun a => a v ^ n) := by
  obtain ⟨e, hpower, he⟩ := Expression.means_power (v := v) hn h
  rw [watchCombine_left (show (decision v).linear? = some _ from rfl)]
  refine .of (a := expression e) ?_ (means_expression he)
  simp only [raise, hpower]
  rfl

end Operand

/-! ### Formulas -/

namespace Formula

variable (env : String → Option Operand)

mutual

/-- No variable and no expression occurs in a formula. -/
def isScalar : Formula → Bool
  | value x => x.isNumber
  | name s => (env s).any (·.isNumber)
  | binary _ f g => isScalar f && isScalar g
  | compare _ _ _ => false
  | negate f => isScalar f
  | between _ _ _ => false
  | sum fs => areScalars fs

/-- No variable and no expression occurs in formulas. -/
def areScalars : List Formula → Bool
  | [] => true
  | f :: fs => isScalar f && areScalars fs

end

mutual

/-- The ordinary value of a formula: numbers and variables have theirs, and operators are those of
the rationals. Comparisons have no value. -/
def worth : Formula → (Variable → ℚ) → ℚ
  | value x, a => x.value a
  | name s, a => ((env s).map (·.value a)).getD 0
  | binary .add f g, a => worth f a + worth g a
  | binary .sub f g, a => worth f a - worth g a
  | binary .mul f g, a => worth f a * worth g a
  | binary .div f g, a => worth f a / worth g a
  | binary .pow f g, a => worth f a ^ ⌊worth g a⌋
  | compare _ _ _, _ => 0
  | negate f, a => -worth f a
  | between _ _ _, _ => 0
  | sum fs, a => sumWorth fs a

/-- The sum of the ordinary values of formulas. -/
def sumWorth : List Formula → (Variable → ℚ) → ℚ
  | [], _ => 0
  | f :: fs, a => worth f a + sumWorth fs a

end

/-- The operand that a formula is, directly or by a name. -/
def atom? : Formula → Option Operand
  | value x => some x
  | name s => env s
  | _ => none

/-- The trees of the algebra. -/
inductive Algebraic : Formula → Prop
  | number {f : Formula} {x : Number} {q : ℚ} (hf : f.atom? env = some (.number x))
    (hx : x.value? = some q) : Algebraic f
  | decision {f : Formula} {v : Variable} (hf : f.atom? env = some (.decision v)) : Algebraic f
  | expression {f : Formula} {e : Expression} (hf : f.atom? env = some (.expression e))
    (he : e.IsFinite) : Algebraic f
  | power {f g : Formula} {v : Variable} {x : Number} {n : ℤ}
    (hf : f.atom? env = some (.decision v)) (hg : g.atom? env = some (.number x))
    (hx : x.whole? = some n) (hn : 1 ≤ n) : Algebraic (.binary .pow f g)
  | add {f g : Formula} (hf : Algebraic f) (hg : Algebraic g) : Algebraic (.binary .add f g)
  | sub {f g : Formula} (hf : Algebraic f) (hg : Algebraic g) : Algebraic (.binary .sub f g)
  | negate {f : Formula} (hf : Algebraic f) : Algebraic (.negate f)
  | mul {f g : Formula} (hf : Algebraic f) (hg : Algebraic g)
    (h : f.isScalar env = true ∨ g.isScalar env = true) : Algebraic (.binary .mul f g)
  | div {f g : Formula} (hf : Algebraic f) (hg : Algebraic g) (h : g.isScalar env = true)
    (hne : ∀ a, g.worth env a ≠ 0) : Algebraic (.binary .div f g)
  | sum {fs : List Formula} (h : ∀ f ∈ fs, Algebraic f) : Algebraic (.sum fs)

variable {env} {f : Formula} {fs : List Formula}

/-- An atom is watched without anything happening. -/
theorem watch_atom {x : Operand} (h : f.atom? env = some x) :
    f.watch env = pure x ∧ f.isScalar env = x.isNumber ∧ ∀ a, f.worth env a = x.value a := by
  cases f with
  | value y =>
    obtain rfl : y = x := Option.some.inj h
    exact ⟨by rw [watch], by rw [isScalar], fun a => by rw [worth]⟩
  | name s =>
    have hs : env s = some x := h
    refine ⟨?_, by rw [isScalar, hs]; rfl, fun a => by rw [worth, hs]; rfl⟩
    rw [watch, eval, hs]
    rfl
  | _ => cases h

/-- An atom stands for its value. -/
theorem gives_atom {x : Operand} (h : f.atom? env = some x)
    (hx : x.Means x.isNumber (x.value ·)) :
    Gives (f.watch env) (·.Means (f.isScalar env) (f.worth env)) := by
  obtain ⟨hwatch, hscalar, hworth⟩ := watch_atom h
  rw [hwatch, hscalar]
  exact .pure (hx.congr fun a => (hworth a).symm)

/-- Formulas that are evaluated each to its value are evaluated together. -/
theorem gives_watchAll
    (h : ∀ f ∈ fs, Gives (f.watch env) (·.Means (f.isScalar env) (f.worth env))) :
    Gives (watchAll env fs) fun rs =>
      List.Forall₂ (fun f (r : Operand) => r.Means (f.isScalar env) (f.worth env)) fs rs := by
  induction fs with
  | nil => exact .pure .nil
  | cons f fs ih =>
    rw [watchAll]
    refine (h f List.mem_cons_self).bind fun r hr => ?_
    refine (ih fun g hg => h g (List.mem_cons_of_mem f hg)).bind fun rs hrs => ?_
    exact .pure (.cons hr hrs)

/-- Adding operands one after the other to a first one adds their values. -/
theorem gives_foldl {rs : List Operand} {r : Operand} {s : Bool} {g : (Variable → ℚ) → ℚ}
    (h : List.Forall₂ (fun f (r : Operand) => r.Means (f.isScalar env) (f.worth env)) fs rs)
    (hr : r.Means s g) :
    Gives (rs.foldlM (Operand.watchCombine .add) r)
      (·.Means (s && areScalars env fs) fun a => g a + sumWorth env fs a) := by
  induction h generalizing r s g with
  | nil =>
    rw [areScalars, Bool.and_true]
    exact .pure (hr.congr fun a => by rw [sumWorth, add_zero])
  | cons hf _ ih =>
    rw [areScalars, ← Bool.and_assoc]
    refine (Operand.gives_add hr hf).bind fun r' hr' => (ih hr').mono fun z hz => ?_
    exact hz.congr fun a => by rw [sumWorth, add_assoc]

/-- Without loss, a tree of the algebra is evaluated to something that stands for its value. -/
theorem gives_watch (h : f.Algebraic env) :
    Gives (f.watch env) (·.Means (f.isScalar env) (f.worth env)) := by
  induction h with
  | number hf hx =>
    exact gives_atom hf ((Operand.Means.number hx).congr fun _ =>
      (Number.value_of_value? hx).symm)
  | decision hf => exact gives_atom hf (Operand.means_decision _)
  | expression hf he => exact gives_atom hf (Operand.means_expression ⟨he, fun _ => rfl⟩)
  | @power f g v x n hf hg hx hn =>
    obtain ⟨hwatchf, hscalarf, hworthf⟩ := watch_atom hf
    obtain ⟨hwatchg, hscalarg, hworthg⟩ := watch_atom hg
    rw [watch, isScalar, hwatchf, hwatchg, hscalarf]
    refine (Operand.gives_power hx hn).mono fun z hz => hz.congr fun a => ?_
    have hexponent : (Operand.number x).value a = n :=
      Number.value_of_value? (Number.value?_of_whole? hx)
    rw [worth, hworthf, hworthg, hexponent, Int.floor_intCast]
    rfl
  | add _ _ ihf ihg =>
    rw [watch, isScalar]
    refine ihf.bind fun r hr => ihg.bind fun r' hr' => ?_
    refine (Operand.gives_add hr hr').mono fun z hz => ?_
    exact hz.congr fun a => by rw [worth]
  | sub _ _ ihf ihg =>
    rw [watch, isScalar]
    refine ihf.bind fun r hr => ihg.bind fun r' hr' => ?_
    refine (Operand.gives_sub hr hr').mono fun z hz => ?_
    exact hz.congr fun a => by rw [worth]
  | negate _ ih =>
    rw [watch, isScalar]
    refine ih.bind fun r hr => (Operand.gives_negate hr).mono fun z hz => ?_
    exact hz.congr fun a => by rw [worth]
  | mul _ _ h ihf ihg =>
    rw [watch, isScalar]
    refine ihf.bind fun r hr => ihg.bind fun r' hr' =>
      (Operand.gives_mul hr hr' h).mono fun z hz => ?_
    exact hz.congr fun a => by rw [worth]
  | div _ _ h hne ihf ihg =>
    rw [watch, isScalar, h, Bool.and_true]
    rw [h] at ihg
    refine ihf.bind fun r hr => ihg.bind fun r' hr' =>
      (Operand.gives_div hr hr' hne).mono fun z hz => ?_
    exact hz.congr fun a => by rw [worth]
  | sum _ ih =>
    rw [watch, isScalar]
    refine (gives_watchAll ih).bind fun rs hrs => ?_
    have hzero : (Operand.scalar (.integer 0)).Means true fun _ => 0 :=
      .number (by simp [Number.value?])
    refine (gives_foldl hrs hzero).mono fun z hz => ?_
    exact hz.congr fun a => by rw [worth, zero_add]

/-- **The algebra of expressions is sound**: unless an operation rounds or a factor is left out that
is not zero, a tree is evaluated to a number, a variable or an expression of the tree's ordinary
value at every assignment. -/
theorem eval_sound (h : f.Algebraic env) (hlossless : (f.watch env).isLossless = true) :
    ∃ r, f.eval env = .ok r ∧ r.Means (f.isScalar env) (f.worth env) := by
  rw [← outcome_watch]
  exact gives_watch h hlossless

/-- A variable. -/
def sampleX : Variable := ⟨⟨0⟩, "x", .continuous⟩

/-- Another variable. -/
def sampleY : Variable := ⟨⟨1⟩, "y", .continuous⟩

/-- The two variables by their names. -/
def sampleNames (s : String) : Option Operand :=
  [("x", Operand.decision sampleX), ("y", Operand.decision sampleY)].lookup s

/-- The sum of `5 - (x * 3 - y) / 4`, `x ^ 2` and `-(y - x)`. -/
def sampleTree : Formula :=
  .sum [.binary .sub (.value (.number (.integer 5)))
      (.binary .div (.binary .sub (.binary .mul (.name "x") (.value (.number (.integer 3))))
        (.name "y")) (.value (.number (.real 4.0)))),
    .binary .pow (.name "x") (.value (.number (.integer 2))),
    .negate (.binary .sub (.name "y") (.name "x"))]

/-- The sample merges terms of both variables and keeps a square. -/
theorem sampleTree_sound : ∃ r e, sampleTree.eval sampleNames = .ok r ∧ r.linear? = some e ∧
    e.IsFinite ∧ ∀ a, e.value a =
      5 - (a sampleX * 3 - a sampleY) / 4 + a sampleX ^ 2 - (a sampleY - a sampleX) := by
  have hx : (Formula.name "x").Algebraic sampleNames := .decision rfl
  have hy : (Formula.name "y").Algebraic sampleNames := .decision rfl
  have hint : ∀ n : ℤ, (Formula.value (.number (.integer n))).Algebraic sampleNames :=
    fun n => .number rfl rfl
  have hfour : (Number.real 4.0).value? = some 4 := by decide +kernel
  have hworth : ∀ a, (Formula.value (.number (.real 4.0))).worth sampleNames a = 4 := fun a =>
    Number.value_of_value? hfour
  have htree : sampleTree.Algebraic sampleNames := by
    refine .sum fun f hf => ?_
    simp only [List.mem_cons, List.not_mem_nil, or_false] at hf
    rcases hf with rfl | rfl | rfl
    · refine .sub (hint 5) (.div (.sub (.mul hx (hint 3) (.inr rfl)) hy) (.number rfl hfour) rfl ?_)
      intro a
      rw [hworth]
      norm_num
    · exact .power rfl rfl rfl (by norm_num)
    · exact .negate (.sub hy hx)
  obtain ⟨r, hr, hmeans⟩ := eval_sound htree (by decide +kernel)
  have hscalar : sampleTree.isScalar sampleNames = false := rfl
  rw [hscalar] at hmeans
  cases hmeans with
  | linear hlinear h =>
    refine ⟨r, _, hr, hlinear, h.finite, fun a => ?_⟩
    have hxa : (Formula.name "x").worth sampleNames a = a sampleX := rfl
    have hya : (Formula.name "y").worth sampleNames a = a sampleY := rfl
    have hinta : ∀ n : ℤ, (Formula.value (.number (.integer n))).worth sampleNames a = n :=
      fun n => rfl
    rw [h.value, sampleTree]
    simp only [worth, sumWorth] at hxa hya hinta hworth ⊢
    simp only [hxa, hya, hinta, hworth]
    norm_num
    ring

end Formula

end Optimization
