import Optimization.Proofs.Coefficients
import Optimization.Proofs.Comparisons

/-!
# Constants in rows

A comparison leaves no constant in the expression of its constraint. A constraint that is made from
an expression and two bounds keeps the constant, and a translation folds it into the bounds of the
row: a negative one is taken from the upper bound, a positive one is added to the lower bound, and
equal bounds move together. Both rows have the same entries, but they allow different values.

* `Extended.move` : places moved by a rational;
* `gives_watchFold` : where the bounds of a row lie;
* `offset` : what the bounds of a row ask of the whole expression;
* `Compares` : the comparisons of an expression with two bounds;
* `row_with_constant` : the whole.
-/

namespace Optimization
open Decimal (Extended Operation place? exactValue? exactValue?_eq_some_iff infinity)
open Watched (Gives perform)

/-! ### Moved places -/

namespace Decimal

namespace Extended

/-- A place moved by a rational. Infinities stay where they are. -/
def move (x : Extended) (s : ℚ) : Extended := WithBot.map (WithTop.map (· + s)) x

/-- A place is one of the infinities or a rational. -/
theorem eq_bot_or_top_or_ofRat (x : Extended) : x = ⊥ ∨ x = ⊤ ∨ ∃ q, x = .ofRat q := by
  induction x using WithBot.recBotCoe with
  | bot => exact .inl rfl
  | coe x =>
    induction x using WithTop.recTopCoe with
    | top => exact .inr (.inl rfl)
    | coe q => exact .inr (.inr ⟨q, rfl⟩)

variable (q s t : ℚ) (x y : Extended)

@[simp] theorem move_bot : move ⊥ s = ⊥ := rfl

@[simp] theorem move_top : move ⊤ s = ⊤ := rfl

@[simp] theorem move_ofRat : (ofRat q).move s = ofRat (q + s) := rfl

@[simp] theorem move_zero : x.move 0 = x := by
  rcases x.eq_bot_or_top_or_ofRat with rfl | rfl | ⟨q, rfl⟩ <;> simp

@[simp] theorem move_move : (x.move s).move t = x.move (s + t) := by
  rcases x.eq_bot_or_top_or_ofRat with rfl | rfl | ⟨q, rfl⟩ <;> simp [add_assoc]

@[simp] theorem move_eq_top : x.move s = ⊤ ↔ x = ⊤ := by
  rcases x.eq_bot_or_top_or_ofRat with rfl | rfl | ⟨q, rfl⟩ <;> simp [(ofRat_lt_top _).ne]

@[simp] theorem move_eq_bot : x.move s = ⊥ ↔ x = ⊥ := by
  rcases x.eq_bot_or_top_or_ofRat with rfl | rfl | ⟨q, rfl⟩ <;> simp [(bot_lt_ofRat _).ne']

/-- A place other than the infinities moves by different distances to different places. -/
@[simp] theorem move_eq_move : x.move s = x.move t ↔ s = t ∨ x = ⊥ ∨ x = ⊤ := by
  rcases x.eq_bot_or_top_or_ofRat with rfl | rfl | ⟨q, rfl⟩ <;>
    simp [(ofRat_lt_top _).ne, (bot_lt_ofRat _).ne']

@[simp] theorem eq_move : x = x.move s ↔ s = 0 ∨ x = ⊥ ∨ x = ⊤ := by
  have h := move_eq_move s 0 x
  rw [move_zero] at h
  rw [← h, eq_comm]

theorem move_le_ofRat : x.move s ≤ ofRat q ↔ x ≤ ofRat (q - s) := by
  rcases x.eq_bot_or_top_or_ofRat with rfl | rfl | ⟨r, rfl⟩
  · simp
  · simp [(ofRat_lt_top _).ne]
  · simp [le_sub_iff_add_le]

theorem ofRat_le_move : ofRat q ≤ x.move s ↔ ofRat (q - s) ≤ x := by
  rcases x.eq_bot_or_top_or_ofRat with rfl | rfl | ⟨r, rfl⟩
  · simp [(bot_lt_ofRat _).ne']
  · simp
  · simp

end Extended

variable {x c : Float} {p : Extended} {s : ℚ}

/-- What has no rational value does not move. -/
theorem move_of_exactValue? (h : place? x = some p) (hx : exactValue? x = none) :
    p.move s = p := by
  rcases p.eq_bot_or_top_or_ofRat with rfl | rfl | ⟨q, rfl⟩
  · rfl
  · rfl
  · rw [exactValue?_eq_some_iff.2 h] at hx
    cases hx

/-- An operation that adds to rationals and keeps infinities has a result where they move to. -/
theorem gives_move {o : Operation} (hx : place? x = some p)
    (hfinite : ∀ q, exactValue? x = some q → o.ideal? = some (q + s))
    (hinfinite : exactValue? x = none → o.result = x) :
    Gives (perform o) fun y => place? y = some (p.move s) := by
  cases hq : exactValue? x with
  | none =>
    have hresult : place? o.result = some (p.move s) := by
      rw [hinfinite hq, hx, move_of_exactValue? hx hq]
    exact fun _ => ⟨o.result, rfl, hresult⟩
  | some q =>
    obtain rfl : p = .ofRat q := Option.some.inj (hx.symm.trans (exactValue?_eq_some_iff.1 hq))
    exact (Gives.perform (hfinite q hq)).mono fun y hy => exactValue?_eq_some_iff.1 hy.2

theorem gives_add (hx : place? x = some p) (hc : exactValue? c = some s) :
    Gives (perform (.add x c)) fun y => place? y = some (p.move s) :=
  gives_move hx (fun _ hq => Operation.ideal?_add hq hc) fun hnone => infinite_add hx hnone hc

theorem gives_sub (hx : place? x = some p) (hc : exactValue? c = some s) :
    Gives (perform (.sub x c)) fun y => place? y = some (p.move (-s)) :=
  gives_move hx (fun q hq => sub_eq_add_neg q s ▸ Operation.ideal?_sub hq hc) fun hnone =>
    infinite_sub hx hnone hc

/-- The negative of an infinity is that with the other sign. -/
theorem negOne_mul_infinite (hx : place? x = some p) (hnone : exactValue? x = none) :
    exactValue? (-1.0 * x) = none ∧ (∃ p', place? (-1.0 * x) = some p') ∧ -(-1.0 * x) = x := by
  rcases p.eq_bot_or_top_or_ofRat with rfl | rfl | ⟨q, rfl⟩
  · obtain rfl := eq_of_place? hx place?_negativeInfinity hnone
    exact ⟨rfl, ⟨⊤, rfl⟩, rfl⟩
  · obtain rfl := eq_of_place? hx place?_infinity hnone
    exact ⟨rfl, ⟨⊥, rfl⟩, rfl⟩
  · rw [exactValue?_eq_some_iff.2 hx] at hnone
    cases hnone

/-- A constant minus a limit lies, with the other sign, where the constant moves the limit to. -/
theorem gives_limit (hx : place? x = some p) (hc : exactValue? c = some s) :
    Gives (do let y ← perform (.mul (-1.0) x); perform (.add c y)) fun d =>
      place? (-d) = some (p.move (-s)) := by
  cases hq : exactValue? x with
  | none =>
    -- an infinite limit swallows the constant
    obtain ⟨hnone, ⟨p', hp'⟩, hneg⟩ := negOne_mul_infinite hx hq
    have hresult : place? (-(c + -1.0 * x)) = some (p.move (-s)) := by
      rw [add_infinite hc hp' hnone, hneg, hx, move_of_exactValue? hx hq]
    exact fun _ => ⟨c + -1.0 * x, rfl, hresult⟩
  | some q =>
    obtain rfl : p = .ofRat q := Option.some.inj (hx.symm.trans (exactValue?_eq_some_iff.1 hq))
    refine (Gives.perform (Operation.ideal?_mul exactValue?_negOne hq)).bind fun y hy => ?_
    refine (Gives.perform (Operation.ideal?_add hc hy.2)).mono fun d hd => ?_
    rw [exactValue?_eq_some_iff.1 (exactValue?_neg hd.2), Extended.move_ofRat]
    congr 2
    ring

end Decimal

open Decimal (gives_add gives_sub gives_limit)

/-! ### Folded constants -/

/-- Watch a constant being folded into the bounds of a row. -/
def watchFold (lower upper constant : Float) : Watched (Float × Float) :=
  if constant == 0.0 then pure (lower, upper)
  else if lower == upper then do
    let shift := if constant < 0.0 then -constant else constant
    pure (← perform (.add lower shift), ← perform (.add upper shift))
  else if constant < 0.0 then do pure (lower, ← perform (.sub upper constant))
  else do pure (← perform (.add lower constant), upper)

theorem outcome_watchFold (lower upper constant : Float) :
    (watchFold lower upper constant).outcome = .ok (foldConstant lower upper constant) := by
  unfold watchFold foldConstant
  simp only [Watched.outcome_ite]
  split_ifs <;> rfl

/-- Where bounds lie when a constant is folded in. -/
def folded (lower upper : Extended) (c : ℚ) : Extended × Extended :=
  if lower = upper then (lower.move |c|, upper.move |c|)
  else if c < 0 then (lower, upper.move (-c))
  else (lower.move c, upper)

/-- What bounds with a constant folded in ask of the terms together with the constant. -/
def offset (lower upper : Extended) (c : ℚ) : Extended × Extended :=
  if c < 0 then (if lower = upper then lower else lower.move c, upper)
  else (lower.move (2 * c), upper.move (if lower = upper then 2 * c else c))

section

variable {lower upper constant : Float} {L U : Extended} {C q : ℚ}

@[simp] theorem folded_zero (L U : Extended) : folded L U 0 = (L, U) := by
  simp [folded]

theorem move_folded (L U : Extended) (C : ℚ) :
    ((folded L U C).1.move C, (folded L U C).2.move C) = offset L U C := by
  unfold folded offset
  by_cases hneg : C < 0
  · by_cases hLU : L = U
    · simp [hLU, hneg, abs_of_neg hneg]
    · simp [hLU, hneg]
  · have hdouble : C + C = 2 * C := by ring
    by_cases hLU : L = U
    · simp [hLU, hneg, abs_of_nonneg (not_lt.1 hneg), hdouble]
    · simp [hLU, hneg, hdouble]

theorem folded_ne_top (hL : L ≠ ⊤) : (folded L U C).1 ≠ ⊤ := by
  unfold folded
  split_ifs <;> simpa

theorem folded_ne_bot (hU : U ≠ ⊥) : (folded L U C).2 ≠ ⊥ := by
  unfold folded
  split_ifs <;> simpa

/-- Terms lie between the folded bounds when, with the constant, they lie between the offset
ones. -/
theorem between_folded : (folded L U C).1 ≤ .ofRat q ∧ .ofRat q ≤ (folded L U C).2 ↔
    (offset L U C).1 ≤ .ofRat (C + q) ∧ .ofRat (C + q) ≤ (offset L U C).2 := by
  rw [← move_folded, Extended.move_le_ofRat, Extended.ofRat_le_move, add_sub_cancel_left]

/-- When folding is the same as taking the constant from both bounds. -/
theorem folded_eq_moved (hL : L ≠ ⊤) (hU : U ≠ ⊥) :
    folded L U C = (L.move (-C), U.move (-C)) ↔
      C = 0 ∨ C < 0 ∧ (L = ⊥ ∨ L = U) ∨ L = ⊥ ∧ U = ⊤ := by
  have hcancel : C = -C ↔ C = 0 := by
    constructor <;> intro h <;> linarith
  unfold folded
  by_cases hLU : L = U
  · -- both bounds are one rational, which moves by the magnitude of the constant
    subst hLU
    simp [hL, hU, abs_eq_neg_self, le_iff_eq_or_lt, or_comm]
  · by_cases hneg : C < 0
    · simp only [hLU, hneg, hL, hneg.ne, if_true, if_false, Prod.mk.injEq, Extended.eq_move,
        neg_eq_zero, and_true, or_false, false_or, true_and]
      constructor
      · exact .inl
      · rintro (h | ⟨h, -⟩) <;> exact h
    · simp only [hLU, hneg, hcancel, hL, hU, if_false, Prod.mk.injEq, Extended.move_eq_move,
        Extended.eq_move, neg_eq_zero, false_and, false_or, or_false]
      exact or_and_left.symm

theorem gives_watchFold (hl : place? lower = some L) (hu : place? upper = some U)
    (hc : exactValue? constant = some C) : Gives (watchFold lower upper constant) fun b =>
      place? b.1 = some (folded L U C).1 ∧ place? b.2 = some (folded L U C).2 := by
  have hneg : constant < 0.0 ↔ C < 0 := by
    rw [Decimal.lt_iff, exactValue?_eq_some_iff.1 hc, Decimal.place?_zero]
    simp
  unfold watchFold
  rw [Decimal.beq_zero hc, Decimal.beq_eq_decide hl hu]
  simp only [decide_eq_true_eq, hneg]
  by_cases hzero : C = 0
  · subst hzero
    simp only [if_pos, folded_zero]
    exact .pure ⟨hl, hu⟩
  · rw [if_neg hzero]
    unfold folded
    by_cases hLU : L = U
    · rw [if_pos hLU, if_pos hLU]
      have hshift : exactValue? (if C < 0 then -constant else constant) = some |C| := by
        split_ifs with h
        · rw [abs_of_neg h]
          exact Decimal.exactValue?_neg hc
        · rw [abs_of_nonneg (not_lt.1 h)]
          exact hc
      exact (gives_add hl hshift).bind fun y hy =>
        (gives_add hu hshift).bind fun z hz => .pure ⟨hy, hz⟩
    · rw [if_neg hLU, if_neg hLU]
      by_cases hC : C < 0
      · rw [if_pos hC, if_pos hC]
        exact (gives_sub hu hc).bind fun y hy => .pure ⟨hl, hy⟩
      · rw [if_neg hC, if_neg hC]
        exact (gives_add hl hc).bind fun y hy => .pure ⟨hy, hu⟩

end

/-! ### Rows -/

/-- Without loss, the float that a number is read as has the value of the number. -/
theorem Number.gives_exact (x : Number) :
    Gives x.watchFloat fun y => x.exact = x.value ∧ x.toFloat = .ok y := by
  cases hx : x.value? with
  | none =>
    cases x with
    | truth b => cases hx
    | integer n => cases hx
    | real u => exact .of rfl ⟨rfl, rfl⟩
  | some q =>
    refine (gives_watchFloat hx).outcome.mono fun y hy => ?_
    have hfloat : x.toFloat = .ok y := (outcome_watchFloat x).symm.trans hy.1
    refine ⟨?_, hfloat⟩
    rw [exact, hfloat, value_of_value? hx]
    exact Expression.exact_of_exactValue? hy.2

/-- The exponent of a linear power is one. -/
theorem Power.degree_of_isLinear {p : Power} (h : p.isLinear = true) : p.degree = 1 := by
  have hvalue : p.exponent.value? = some 1 := by
    rw [Scalar.value?_of_same h]
    simp [Scalar.value?, Number.one, Number.value?]
  rw [degree, hvalue, Option.getD_some, Int.floor_one]

/-- The value of a linear expression is its constant and the sum of its terms. -/
theorem Expression.value_eq_total {e : Expression} (hlinear : e.isLinear = true)
    (hexact : ∀ t ∈ e.factors, t.2.exact = t.2.value) (a : Variable → ℚ) :
    e.value a = Limits.exact e.constant + e.total a := by
  have hterms : ∀ t ∈ e.factors, t.2.value * t.1.value a = t.2.exact * a t.1.var := by
    intro t ht
    rw [hexact t ht, Power.value, Power.degree_of_isLinear (List.all_eq_true.1 hlinear t ht),
      zpow_one]
  rw [value, sumTerms, total, List.map_congr_left hterms]

namespace Constraint

variable {c : Constraint} {L U : Extended} {C : ℚ}

/-- Watch a constraint become a row: its factors become floats, and its constant is folded into its
bounds. -/
def watchRow (c : Constraint) : Watched (List Float × Float × Float) := do
  let factors ← c.expression.factors.mapM fun t => t.2.watchFloat
  let bounds ← watchFold c.lower c.upper c.expression.constant
  pure (factors, bounds)

theorem outcome_watchRow (c : Constraint) : c.watchRow.outcome =
    (do
      let factors ← c.expression.factors.mapM fun t => t.2.toFloat
      pure (factors, foldConstant c.lower c.upper c.expression.constant)) := by
  unfold watchRow
  simp only [Watched.outcome_bind, Watched.outcome_mapM, Number.outcome_watchFloat,
    outcome_watchFold]
  rfl

/-- Without loss, the factors keep their values and the bounds lie where the constant moves them. -/
theorem gives_watchRow (hl : place? c.lower = some L) (hu : place? c.upper = some U)
    (hc : exactValue? c.expression.constant = some C) : Gives c.watchRow fun _ =>
      (∀ t ∈ c.expression.factors, t.2.exact = t.2.value) ∧
      place? (foldConstant c.lower c.upper c.expression.constant).1 = some (folded L U C).1 ∧
      place? (foldConstant c.lower c.upper c.expression.constant).2 = some (folded L U C).2 := by
  refine (Gives.mapM fun t _ => Number.gives_exact t.2).bind fun factors hfactors => ?_
  refine (gives_watchFold hl hu hc).outcome.bind fun b hb => .pure ?_
  rw [outcome_watchFold] at hb
  cases hb.1
  exact ⟨((List.forall₂_and_left ..).1 hfactors).1, hb.2⟩

/-! ### Comparisons with limits -/

/-- A constraint without a constant keeps terms between two places. -/
structure Keeps (c : Constraint) (factors : List (Power × Number)) (lower upper : Extended) :
    Prop where
  expression : c.expression = ⟨factors, 0.0⟩
  lower : place? c.lower = some lower
  upper : place? c.upper = some upper

end Constraint

/-- Where the bounds lie that a sense gives to a place. -/
def Sense.places (sense : Sense) (x : Extended) : Extended × Extended :=
  match sense with
  | .atMost => (⊥, x)
  | .atLeast => (x, ⊤)
  | .equal => (x, x)

namespace Operand

/-- The comparisons that keep an operand between two floats: how they are watched, and what they
make. -/
inductive Compares (a : Operand) (lower upper : Float) :
    Watched Operand → Except Fault Operand → Prop
  | atMost {y : Number} (hlower : place? lower = some ⊥) (hy : y.toFloat = .ok upper) :
    Compares a lower upper (watchCompare .le a (.number y)) (compare .le a (.number y))
  | atLeast {x : Number} (hupper : place? upper = some ⊤) (hx : x.toFloat = .ok lower) :
    Compares a lower upper (watchCompare .ge a (.number x)) (compare .ge a (.number x))
  | equal {x : Number} (h : place? lower = place? upper) (hx : x.toFloat = .ok lower) :
    Compares a lower upper (watchCompare .eq a (.number x)) (compare .eq a (.number x))
  | between {x y : Number} (hx : x.toFloat = .ok lower) (hy : y.toFloat = .ok upper) :
    Compares a lower upper (watchBetween (.number x) a (.number y))
      (between (.number x) a (.number y))

variable {a : Operand} {e : Expression} {x : Number} {u lower upper : Float} {L U : Extended}
  {C : ℚ} {w : Watched Operand} {r : Except Fault Operand}

theorem Compares.outcome (h : Compares a lower upper w r) : w.outcome = r := by
  cases h with
  | between => exact outcome_watchBetween ..
  | _ => exact outcome_watchCompare ..

theorem gives_watchFloat_of_toFloat (h : x.toFloat = .ok u) : Gives x.watchFloat (· = u) :=
  fun _ => ⟨u, (Number.outcome_watchFloat x).trans h, rfl⟩

theorem gives_watchClean_of_significant (h : e.Significant) : Gives e.watchClean (· = e) :=
  fun _ => ⟨e, by rw [Expression.outcome_watchClean, Expression.clean_of_significant h], rfl⟩

/-- Taking a limit from an expression leaves the terms, and the constant is in the limit. -/
theorem gives_watchCombine_limit (he : e.Significant) (hc : exactValue? e.constant = some C)
    (hu : place? u = some U) : Gives (e.watchCombine (-1.0) (.ofFloat u)) fun d =>
      d.factors = e.factors ∧ place? (-d.constant) = some (U.move (-C)) := by
  have hmerge : Expression.watchMerge (-1.0) e.factors (Expression.ofFloat u).factors =
      pure e.factors := rfl
  unfold Expression.watchCombine
  rw [hmerge, pure_bind, ← bind_assoc]
  refine (gives_limit hu hc).bind fun d hd => ?_
  have hsignificant : Expression.Significant ⟨e.factors, d⟩ := he
  refine (gives_watchClean_of_significant hsignificant).mono ?_
  rintro _ rfl
  exact ⟨rfl, hd⟩

/-- A comparison with a limit keeps the terms on one side of it, or at it. -/
theorem gives_watchConstrain_limit (sense : Sense) (he : e.Significant)
    (hc : exactValue? e.constant = some C) (hx : x.toFloat = .ok u) (hu : place? u = some U) :
    Gives (watchConstrain e sense (.number x)) fun y => ∃ c, y = made c ∧
      c.Keeps e.factors (sense.places (U.move (-C))).1 (sense.places (U.move (-C))).2 := by
  have hexpression : Gives (watchExpression (.number x)) (· = .ofFloat u) :=
    (gives_watchFloat_of_toFloat hx).bind fun _ hy => .pure (by rw [hy])
  refine hexpression.bind ?_
  rintro _ rfl
  refine (gives_watchCombine_limit he hc hu).bind fun d hd => ?_
  have hsense : Gives (Constraint.watchSense d sense) fun c =>
      c.Keeps e.factors (sense.places (U.move (-C))).1 (sense.places (U.move (-C))).2 := by
    have hsignificant : Expression.Significant ⟨e.factors, 0.0⟩ := he
    unfold Constraint.watchSense
    rw [hd.1]
    refine (gives_watchClean_of_significant hsignificant).bind ?_
    rintro _ rfl
    refine .pure ⟨rfl, ?_, ?_⟩
    · cases sense
      · exact Decimal.place?_negativeInfinity
      · exact hd.2
      · exact hd.2
    · cases sense
      · exact hd.2
      · exact Decimal.place?_infinity
      · exact hd.2
  exact hsense.bind fun c hc => .pure ⟨c, rfl, hc⟩

theorem gives_watchCompare_limit (sense : Sense) (ha : a.linear? = some e) (he : e.Significant)
    (hc : exactValue? e.constant = some C) (hx : x.toFloat = .ok u) (hu : place? u = some U) :
    Gives (watchCompare sense.relation a (.number x)) fun y => ∃ c, y = made c ∧
      c.Keeps e.factors (sense.places (U.move (-C))).1 (sense.places (U.move (-C))).2 := by
  unfold watchCompare
  simp only [ha]
  cases sense <;> exact gives_watchConstrain_limit _ he hc hx hu

theorem gives_watchBetween_limits (he : e.Significant) (hc : exactValue? e.constant = some C)
    (hl : place? lower = some L) (hu : place? upper = some U) (hle : L ≤ U) :
    Gives (Constraint.watchBetween lower e upper)
      (·.Keeps e.factors (L.move (-C)) (U.move (-C))) := by
  have hsignificant : Expression.Significant ⟨e.factors, 0.0⟩ := he
  unfold Constraint.watchBetween
  rw [if_neg (Decimal.not_gt_of_le (Decimal.le_iff.2 ⟨L, U, hl, hu, hle⟩))]
  refine (gives_watchClean_of_significant hsignificant).bind ?_
  rintro _ rfl
  refine (Decimal.gives_sub hl hc).bind fun l hl' => ?_
  exact (Decimal.gives_sub hu hc).bind fun u hu' => .pure ⟨rfl, hl', hu'⟩

theorem gives_watchExpression_of_linear (ha : a.linear? = some e) :
    Gives a.watchExpression (· = e) := by
  cases a <;> cases ha <;> exact .of rfl rfl

/-- A comparison that keeps an expression between two bounds takes its constant from both. -/
theorem Compares.gives (h : Compares a lower upper w r) (ha : a.linear? = some e)
    (he : e.Significant) (hc : exactValue? e.constant = some C) (hl : place? lower = some L)
    (hu : place? upper = some U) (hle : L ≤ U) : Gives w fun y => ∃ c, y = made c ∧
      c.Keeps e.factors (L.move (-C)) (U.move (-C)) := by
  cases h with
  | atMost hlower hy =>
    obtain rfl : L = ⊥ := Option.some.inj (hl.symm.trans hlower)
    exact gives_watchCompare_limit .atMost ha he hc hy hu
  | atLeast hupper hx =>
    obtain rfl : U = ⊤ := Option.some.inj (hu.symm.trans hupper)
    exact gives_watchCompare_limit .atLeast ha he hc hx hl
  | equal heq hx =>
    obtain rfl : L = U := Option.some.inj (hl.symm.trans (heq.trans hu))
    exact gives_watchCompare_limit .equal ha he hc hx hl
  | between hx hy =>
    refine (gives_watchExpression_of_linear ha).bind ?_
    rintro _ rfl
    refine Gives.bind (gives_watchFloat_of_toFloat hx) ?_
    rintro _ rfl
    refine Gives.bind (gives_watchFloat_of_toFloat hy) ?_
    rintro _ rfl
    exact (gives_watchBetween_limits he hc hl hu hle).bind fun c hc => .pure ⟨c, rfl, hc⟩

end Operand

/-! ### The whole -/

/-- The values of a model's variables that a row allows. -/
def Row.Allows (row : Row) (m : Model) (v : Variable → ℚ) : Prop :=
  Within row.span.bounds.1 row.span.bounds.2 (row.total (m.vector v))

/-- The bounds with the constant folded in are accepted for a row. -/
def Constraint.HasShape (c : Constraint) : Prop :=
  ∃ t, BoundType.classify (foldConstant c.lower c.upper c.expression.constant).1
    (foldConstant c.lower c.upper c.expression.constant).2 = .ok t

section

variable {m : Model} {c : Constraint} {row : Row} {L U : Extended} {C : ℚ}
  {factors : List (Power × Number)} {v : Variable → ℚ}

/-- Without a constant there is nothing to fold in. -/
theorem Constraint.Keeps.fold (h : c.Keeps factors L U) :
    foldConstant c.lower c.upper c.expression.constant = (c.lower, c.upper) := by
  rw [h.expression]
  show foldConstant c.lower c.upper 0.0 = _
  exact foldConstant_of_zero (by rfl)

/-- The row of a constraint without a constant allows what the constraint keeps. -/
theorem MadeRow.allows_of_keeps (h : MadeRow m c row) (hc : c.Keeps factors L U) :
    row.Allows m v ↔
      L ≤ .ofRat (c.expression.total v) ∧ .ofRat (c.expression.total v) ≤ U := by
  obtain ⟨hl, hu⟩ := h.places
  rw [hc.fold, hc.lower] at hl
  rw [hc.fold, hc.upper] at hu
  rw [Row.Allows, within_iff hl hu, h.total]

/-- The row of a constraint with a constant allows what lies between the offset bounds. -/
theorem MadeRow.allows_of_folded (h : MadeRow m c row)
    (hl : place? (foldConstant c.lower c.upper c.expression.constant).1 = some (folded L U C).1)
    (hu : place? (foldConstant c.lower c.upper c.expression.constant).2 = some (folded L U C).2) :
    row.Allows m v ↔ (offset L U C).1 ≤ .ofRat (C + c.expression.total v) ∧
      .ofRat (C + c.expression.total v) ≤ (offset L U C).2 := by
  rw [Row.Allows, within_iff (h.places.1.trans hl) (h.places.2.trans hu), h.total, between_folded]

/-- **A constant is folded into the bounds of a row.** A constraint with a constant and bounds in
order is given a row, which allows the values between the offset bounds. A comparison that keeps the
same expression between the same bounds makes a constraint whose row has the same entries and allows
the values between the bounds themselves. The bounds of the two rows lie at the same places exactly
when there is no constant, or a negative one beside equal bounds or no lower bound, or when there are
no bounds at all. -/
theorem row_with_constant (hformed : c.expression.Formed)
    (hconstant : exactValue? c.expression.constant = some C) (hlower : place? c.lower = some L)
    (hupper : place? c.upper = some U) (hL : L ≠ ⊤) (hU : U ≠ ⊥) (hle : L ≤ U)
    (hlossless : c.watchRow.isLossless = true) :
    (c.expression.isLinear = true → ∀ v, c.expression.value v = C + c.expression.total v) ∧
    c.HasShape ∧
    (∀ m row, MadeRow m c row → ∀ v, row.Allows m v ↔
      (offset L U C).1 ≤ .ofRat (C + c.expression.total v) ∧
        .ofRat (C + c.expression.total v) ≤ (offset L U C).2) ∧
    ∀ a w r, a.linear? = some c.expression → Operand.Compares a c.lower c.upper w r →
      w.isLossless = true → ∃ c', r = .ok (.made c') ∧ c'.HasShape ∧
        ∀ m row row', MadeRow m c row → MadeRow m c' row' →
          (∀ v, row'.Allows m v ↔ L ≤ .ofRat (C + c.expression.total v) ∧
            .ofRat (C + c.expression.total v) ≤ U) ∧
          row'.entries = row.entries ∧
          (place? row'.span.bounds.1 = place? row.span.bounds.1 ∧
              place? row'.span.bounds.2 = place? row.span.bounds.2 ↔
            C = 0 ∨ C < 0 ∧ (L = ⊥ ∨ L = U) ∨ L = ⊥ ∧ U = ⊤) := by
  obtain ⟨-, -, hexact, hl, hu⟩ := Constraint.gives_watchRow hlower hupper hconstant hlossless
  refine ⟨fun hlinear v => ?_, ?_, fun m row hrow v => hrow.allows_of_folded hl hu,
    fun a w r ha hw hw' => ?_⟩
  · rw [Expression.value_eq_total hlinear hexact, Expression.exact_of_exactValue? hconstant]
  · exact ⟨_, BoundType.classify_of_place? hl hu (folded_ne_top hL) (folded_ne_bot hU)⟩
  · obtain ⟨y, hy, c', rfl, hc'⟩ :=
      hw.gives ha hformed.significant hconstant hlower hupper hle hw'
    rw [hw.outcome] at hy
    -- both constraints have the same terms, so that their rows differ in their bounds only
    have hfactors : c'.expression.factors = c.expression.factors := by rw [hc'.expression]
    refine ⟨c', hy, ?_, fun m row row' hrow hrow' => ⟨fun v => ?_,
      hrow.entries_congr hrow' hfactors, ?_⟩⟩
    · rw [Constraint.HasShape, hc'.fold]
      exact ⟨_, BoundType.classify_of_place? hc'.lower hc'.upper (by simpa) (by simpa)⟩
    · have htotal : c'.expression.total v = c.expression.total v := by
        rw [Expression.total, hfactors, Expression.total]
      rw [hrow'.allows_of_keeps hc', htotal, Extended.move_le_ofRat, Extended.ofRat_le_move,
        sub_neg_eq_add, add_comm C]
    · rw [hrow.places.1, hrow.places.2, hrow'.places.1, hrow'.places.2, hc'.fold, hc'.lower,
        hc'.upper, hl, hu, ← folded_eq_moved hL hU, Prod.ext_iff]
      simp only [Option.some.injEq, eq_comm]

end

/-! ### A sample -/

/-- A variable plus one. -/
def sampleShifted : Expression := .ofFactors [(.first ⟨⟨0⟩, "x", .continuous⟩, .real 1.0)] 1.0

/-- A variable plus one is not negative, made from the expression and its bounds. -/
def sampleKept : Constraint := ⟨sampleShifted, none, 0.0, infinity⟩

/-- A variable plus one is not negative, as the comparison makes it. -/
def sampleCompared : Constraint :=
  ⟨Expression.clean ⟨sampleShifted.factors, 0.0⟩, none, -1.0, infinity⟩

/-- A model with both constraints. -/
def sampleWithConstant : Workspace :=
  let x : Variable := ⟨⟨0⟩, "x", .continuous⟩
  let w := (Modeling.newVariable { name := "x" }).after {}
  let w := (Modeling.newModel (.empty (.text "shifted"))).after w
  let w := (Modeling.addVariable ⟨0⟩ x).after w
  let w := (Modeling.newConstraint sampleKept).after w
  let w := (Modeling.newConstraint sampleCompared).after w
  let w := (Modeling.addConstraint ⟨0⟩ ⟨0⟩ none).after w
  (Modeling.addConstraint ⟨0⟩ ⟨1⟩ none).after w

theorem sampleShifted_formed : sampleShifted.Formed := .ofFactors _ _

theorem sampleWithConstant_built :
    Modeling.Built false sampleWithConstant [⟨⟨0⟩, "x", .continuous⟩] := by
  refine .step ?_ (.addConstraint _ _ _)
  refine .step ?_ (.addConstraint _ _ _)
  refine .step ?_ (.newConstraint (.clean sampleShifted_formed 0.0))
  refine .step ?_ (.newConstraint sampleShifted_formed)
  refine .step ?_ (.addVariable _ (by simp))
  refine .step ?_ (.newModel _)
  exact .step .start (.newVariable rfl)

/-- Both constraints get rows. -/
theorem sampleWithConstant_rows :
    (∃ row, MadeRow (sampleWithConstant.models.get ⟨0⟩) sampleKept row) ∧
      ∃ row, MadeRow (sampleWithConstant.models.get ⟨0⟩) sampleCompared row := by
  obtain ⟨label, hlabel⟩ : ∃ label, sampleWithConstant.constraints.get ⟨0⟩ =
      { sampleKept with name := label } := ⟨_, rfl⟩
  obtain ⟨label', hlabel'⟩ : ∃ label, sampleWithConstant.constraints.get ⟨1⟩ =
      { sampleCompared with name := label } := ⟨_, rfl⟩
  exact ⟨MadeRow.exists_of_computed (r := ⟨0⟩) (some "p") sampleWithConstant_built ⟨_, rfl⟩
      (k := 0) rfl hlabel,
    MadeRow.exists_of_computed (r := ⟨0⟩) (some "p") sampleWithConstant_built ⟨_, rfl⟩
      (k := 1) rfl hlabel'⟩

theorem sample_compared :
    Operand.compare .ge (.expression sampleShifted) (.number (.real 0.0)) =
      .ok (.made sampleCompared) := by
  rfl

/-- A row with a constant need not allow what its constraint keeps: zero plus one is not
negative. -/
theorem sampleKept_row_differs : ∃ row row' v,
    MadeRow (sampleWithConstant.models.get ⟨0⟩) sampleKept row ∧
    MadeRow (sampleWithConstant.models.get ⟨0⟩) sampleCompared row' ∧
    Operand.compare .ge (.expression sampleKept.expression) (.number (.real sampleKept.lower)) =
      .ok (.made sampleCompared) ∧
    Within sampleKept.lower sampleKept.upper (sampleKept.expression.value v) ∧
    ¬ row.Allows (sampleWithConstant.models.get ⟨0⟩) v ∧
    row'.Allows (sampleWithConstant.models.get ⟨0⟩) v := by
  obtain ⟨⟨row, hrow⟩, row', hrow'⟩ := sampleWithConstant_rows
  obtain ⟨-, -, hexact, hl, hu⟩ := Constraint.gives_watchRow (c := sampleKept) Decimal.place?_zero
    Decimal.place?_infinity Decimal.exactValue?_one (by decide +kernel)
  have hkeeps : sampleCompared.Keeps sampleCompared.expression.factors (.ofRat (-1)) ⊤ :=
    ⟨rfl, exactValue?_eq_some_iff.1 Decimal.exactValue?_negOne, Decimal.place?_infinity⟩
  have htotal : ∀ e : Expression, e.total (fun _ => 0) = 0 := by simp [Expression.total]
  have hvalue : sampleKept.expression.value (fun _ => 0) = 1 := by
    rw [Expression.value_eq_total (by decide) hexact, htotal, add_zero]
    exact Expression.exact_of_exactValue? Decimal.exactValue?_one
  refine ⟨row, row', fun _ => 0, hrow, hrow', sample_compared, ?_, ?_, ?_⟩
  · rw [hvalue]
    exact (within_iff Decimal.place?_zero Decimal.place?_infinity).2 (by simp)
  · rw [hrow.allows_of_folded hl hu, htotal]
    simp only [offset, Extended.move_ofRat]
    norm_num
  · rw [hrow'.allows_of_keeps hkeeps, htotal]
    simp

/-- The rows of the sample. -/
theorem sampleKept_row_with_constant : ∃ row row',
    MadeRow (sampleWithConstant.models.get ⟨0⟩) sampleKept row ∧
    MadeRow (sampleWithConstant.models.get ⟨0⟩) sampleCompared row' ∧
    (∀ v, row.Allows (sampleWithConstant.models.get ⟨0⟩) v ↔ 2 ≤ sampleShifted.value v) ∧
    (∀ v, row'.Allows (sampleWithConstant.models.get ⟨0⟩) v ↔ 0 ≤ sampleShifted.value v) ∧
    row'.entries = row.entries ∧
    ¬ (place? row'.span.bounds.1 = place? row.span.bounds.1 ∧
      place? row'.span.bounds.2 = place? row.span.bounds.2) := by
  obtain ⟨⟨row, hrow⟩, row', hrow'⟩ := sampleWithConstant_rows
  obtain ⟨hvalue, -, hdirect, hcompared⟩ := row_with_constant (c := sampleKept)
    sampleShifted_formed Decimal.exactValue?_one Decimal.place?_zero Decimal.place?_infinity
    (Decimal.ofRat_lt_top 0).ne (by simp) le_top (by decide +kernel)
  obtain ⟨c', hc', -, hrows⟩ := hcompared (.expression sampleShifted) _ _ rfl
    (.atLeast (x := .real 0.0) Decimal.place?_infinity rfl) (by decide +kernel)
  obtain rfl : sampleCompared = c' := by
    have hmade : Except.ok (Operand.made sampleCompared) = .ok (.made c') :=
      sample_compared.symm.trans hc'
    injection Except.ok.inj hmade
  obtain ⟨hallows, hentries, hsame⟩ := hrows _ row row' hrow hrow'
  have hvalue : ∀ v, sampleShifted.value v = 1 + sampleShifted.total v := hvalue (by decide)
  have hoffset : offset (.ofRat 0) ⊤ 1 = (.ofRat 2, ⊤) := by norm_num [offset]
  refine ⟨row, row', hrow, hrow', fun v => ?_, fun v => ?_, hentries, hsame.not.2 ?_⟩
  · rw [hdirect _ row hrow, hvalue, hoffset]
    simp [sampleKept]
  · rw [hallows, hvalue]
    simp [sampleKept]
  · norm_num [(Decimal.bot_lt_ofRat 0).ne', (Decimal.ofRat_lt_top 0).ne]

end Optimization
