import Optimization.Proofs.Algebra
import Optimization.Proofs.Rows

/-!
# Comparisons

A comparison of variables, expressions and numbers makes a constraint without a constant: the sides
are subtracted, and the constant of the difference moves into the bounds with the other sign. Its
rows have the shape of the comparison unless the moved constant is too large, and a range whose
bounds coincide once they are moved becomes a fixed value. If nothing is rounded, the constraint
allows the assignments for which the comparison of the sides holds.

* `Constraint.Sided`, `Constraint.Ranged` : where the bounds are, and the shape of the rows;
* `Constraint.Says` : what a constraint says, and the shape of its rows;
* `gives_watchSense`, `gives_watchBetween` : constants move into the bounds;
* `comparison_meaning` : the whole;
* `rounded_shapes` : bounds that coincide, or are lost, when they are moved.
-/

namespace Optimization
open Decimal (Extended Operation place? exactValue? exactValue?_eq_some_iff)
open Watched (Gives)

/-! ### Meanings -/

/-- What a comparison says of rationals. -/
def Relation.Holds : Relation → ℚ → ℚ → Prop
  | .le, q, r => q ≤ r
  | .ge, q, r => q ≥ r
  | .eq, q, r => q = r
  | .ne, q, r => q ≠ r
  | .lt, q, r => q < r
  | .gt, q, r => q > r

theorem Relation.holds_flip (o : Relation) (q r : ℚ) : o.flip.Holds r q ↔ o.Holds q r := by
  cases o <;> simp [Relation.flip, Relation.Holds, eq_comm]

/-- The shape of the rows of a comparison that makes a constraint. -/
def Relation.shape? : Relation → Option BoundType
  | .le => some .upper
  | .ge => some .lower
  | .eq => some .fixed
  | _ => none

/-- The comparison that a sense is for. -/
def Sense.relation : Sense → Relation
  | .atMost => .le
  | .atLeast => .ge
  | .equal => .eq

namespace Constraint

/-- A constraint without a constant allows the assignments of which something is true, and all its
rows have one shape. -/
structure Says (c : Constraint) (P : (Variable → ℚ) → Prop) (t : BoundType) : Prop where
  constant : c.expression.constant = 0.0
  finite : c.expression.IsFinite
  meaning : ∀ a, Within c.lower c.upper (c.expression.value a) ↔ P a
  shape : ∀ m row, MadeRow m c row → row.span.type = t

variable {c : Constraint} {P P' : (Variable → ℚ) → Prop} {t : BoundType}
  {f : (Variable → ℚ) → ℚ} {lower upper : Extended}

theorem Says.congr {t' : BoundType} (h : c.Says P t) (ht : t = t') (hP : ∀ a, P a ↔ P' a) :
    c.Says P' t' :=
  { h with
    meaning := fun a => (h.meaning a).trans (hP a)
    shape := ht ▸ h.shape }

/-- The shape of a row depends on the places of the bounds of its constraint, which has no constant.
-/
theorem type_of_madeRow {m : Model} {row : Row} (hconstant : c.expression.constant = 0.0)
    (h : MadeRow m c row) : ∃ a b, place? c.lower = some a ∧ place? c.upper = some b ∧ a ≠ ⊤ ∧
      b ≠ ⊥ ∧ row.span.type = BoundType.ofPlaces a b := by
  obtain ⟨t, ht, hspan⟩ := h.span
  rw [hconstant, foldConstant_of_zero (by rfl)] at ht hspan
  obtain ⟨a, b, ha, hb, htop, hbot, rfl⟩ := BoundType.classify_eq_ok_iff.1 ht
  exact ⟨a, b, ha, hb, htop, hbot, by rw [hspan, Span.type_keep]⟩

/-- What a constraint says depends on the places of its bounds. -/
theorem says_of_places (hconstant : c.expression.constant = 0.0) (hf : c.expression.Means f)
    (hl : place? c.lower = some lower) (hu : place? c.upper = some upper) :
    c.Says (fun a => lower ≤ .ofRat (f a) ∧ .ofRat (f a) ≤ upper)
      (BoundType.ofPlaces lower upper) where
  constant := hconstant
  finite := hf.finite
  meaning a := by
    rw [within_iff hl hu, hf.value]
  shape m row h := by
    obtain ⟨a, b, ha, hb, -, -, htype⟩ := type_of_madeRow hconstant h
    obtain rfl : lower = a := Option.some.inj (hl.symm.trans ha)
    obtain rfl : upper = b := Option.some.inj (hu.symm.trans hb)
    exact htype

/-! ### Constants move into the bounds -/

variable {d e : Expression} {l u : Float} {q r : ℚ}

/-- Without its constant, an expression stands for less by the constant. -/
theorem means_withoutConstant (hd : d.Means f) (hq : exactValue? d.constant = some q) :
    (Expression.mk d.factors 0.0).Means fun a => f a - q := by
  refine ⟨⟨⟨0, Decimal.exactValue?_zero⟩, hd.finite.factors⟩, fun a => ?_⟩
  rw [← hd.value a, Expression.value, Expression.value,
    Expression.exact_of_exactValue? Decimal.exactValue?_zero, Expression.exact_of_exactValue? hq]
  ring

/-- Terms are left out from an expression without its constant. -/
theorem gives_clean (hd : d.Means f) (hq : exactValue? d.constant = some q) :
    Gives (Expression.watchClean ⟨d.factors, 0.0⟩) fun e =>
      e.constant = 0.0 ∧ e.Means fun a => f a - q := by
  intro hlossless
  obtain ⟨e, he, hmeans⟩ :=
    Expression.gives_watchClean (means_withoutConstant hd hq) hlossless
  obtain rfl : Expression.clean ⟨d.factors, 0.0⟩ = e := Except.ok.inj he
  exact ⟨_, rfl, rfl, hmeans⟩

/-- The constraint that a difference is at most, at least or equal to zero. -/
theorem gives_watchSense (sense : Sense) (ht : sense.relation.shape? = some t) (hd : d.Means f) :
    Gives (watchSense d sense) (·.Says (fun a => sense.relation.Holds (f a) 0) t) := by
  obtain ⟨q, hq⟩ := hd.finite.constant
  have hbound : place? (-d.constant) = some (.ofRat (-q)) :=
    exactValue?_eq_some_iff.1 (Decimal.exactValue?_neg hq)
  refine (gives_clean hd hq).bind fun e he => .pure ?_
  have hmeans : ∀ {lower upper : Extended}, place? (ofSense d sense).lower = some lower →
      place? (ofSense d sense).upper = some upper → _ := fun hl hu =>
    says_of_places (c := { ofSense d sense with expression := e }) he.1 he.2 hl hu
  cases sense with
  | atMost =>
    cases ht
    refine (hmeans Decimal.place?_negativeInfinity hbound).congr (by simp) fun a => ?_
    simp [Sense.relation, Relation.Holds]
  | atLeast =>
    cases ht
    refine (hmeans hbound Decimal.place?_infinity).congr (by simp) fun a => ?_
    simp [Sense.relation, Relation.Holds]
  | equal =>
    cases ht
    refine (hmeans hbound hbound).congr (by simp) fun a => ?_
    simp only [Decimal.ofRat_le_ofRat, Sense.relation, Relation.Holds]
    constructor
    · intro h
      linarith [h.1, h.2]
    · intro h
      constructor <;> linarith

/-- The constraint that an expression lies between two bounds. -/
theorem gives_watchBetween (hl : exactValue? l = some q) (hu : exactValue? u = some r) (h : q ≤ r)
    (hd : d.Means f) : Gives (watchBetween l d u)
      (·.Says (fun a => q ≤ f a ∧ f a ≤ r) (if q = r then .fixed else .range)) := by
  obtain ⟨s, hs⟩ := hd.finite.constant
  have hordered : ¬ l > u := Decimal.not_gt_of_le (Decimal.le_iff.2
    ⟨_, _, exactValue?_eq_some_iff.1 hl, exactValue?_eq_some_iff.1 hu, by simpa using h⟩)
  unfold watchBetween
  rw [if_neg hordered]
  refine (gives_clean hd hs).bind fun e he => ?_
  refine (Gives.perform (Operation.ideal?_sub hl hs)).bind fun l' hl' => ?_
  refine (Gives.perform (Operation.ideal?_sub hu hs)).bind fun u' hu' => .pure ?_
  refine (says_of_places (c := ⟨e, none, l', u'⟩) he.1 he.2 (exactValue?_eq_some_iff.1 hl'.2)
    (exactValue?_eq_some_iff.1 hu'.2)).congr (by simp) fun a => ?_
  simp

/-! ### Shapes of rows -/

/-- A constraint without a constant that has one float as its bound on the sides that a shape uses.
Its rows have the shape if the float is finite, and no bounds at all if not. -/
structure Sided (c : Constraint) (t : BoundType) (moved : Float) : Prop where
  constant : c.expression.constant = 0.0
  lower : c.lower = if t.hasLower then moved else Decimal.negativeInfinity
  upper : c.upper = if t.hasUpper then moved else Decimal.infinity
  shape : ∀ m row, MadeRow m c row →
    row.span.type = if moved.isFinite then t else .free

/-- A constraint without a constant whose bounds were moved by the constant of an expression. Its
rows have a fixed value if the moved bounds are finite and coincide, and a range if they are finite
and differ. -/
structure Ranged (c : Constraint) (l : Float) (e : Expression) (u : Float) : Prop where
  constant : c.expression.constant = 0.0
  lower : c.lower = l - e.constant
  upper : c.upper = u - e.constant
  shape : ∀ q r, exactValue? c.lower = some q → exactValue? c.upper = some r →
    ∀ m row, MadeRow m c row → row.span.type = if q = r then .fixed else .range
  /-- A moved bound that is not finite is no bound. -/
  lost : ¬(c.lower.isFinite = true ∧ c.upper.isFinite = true) →
    ∀ m row, MadeRow m c row → row.span.type ≠ .fixed ∧ row.span.type ≠ .range

/-- **Rows of a comparison have its shape**, unless the moved constant is too large. -/
theorem sided_ofSense (d : Expression) (sense : Sense) (ht : sense.relation.shape? = some t) :
    (ofSense d sense).Sided t (-d.constant) := by
  cases sense with
  | atMost =>
    cases ht
    refine ⟨rfl, rfl, rfl, fun m row hrow => ?_⟩
    obtain ⟨a, b, ha, hb, -, hbot, htype⟩ := type_of_madeRow rfl hrow
    obtain rfl : ⊥ = a := Option.some.inj (Decimal.place?_negativeInfinity.symm.trans ha)
    rw [htype, BoundType.ofPlaces]
    have hfinite : (-d.constant).isFinite = true ↔ b ≠ ⊥ ∧ b ≠ ⊤ := Decimal.isFinite_iff hb
    simp only [hfinite]
    by_cases htop : b = ⊤ <;> simp [htop, hbot]
  | atLeast =>
    cases ht
    refine ⟨rfl, rfl, rfl, fun m row hrow => ?_⟩
    obtain ⟨a, b, ha, hb, htop, -, htype⟩ := type_of_madeRow rfl hrow
    obtain rfl : ⊤ = b := Option.some.inj (Decimal.place?_infinity.symm.trans hb)
    rw [htype, BoundType.ofPlaces]
    have hfinite : (-d.constant).isFinite = true ↔ a ≠ ⊥ ∧ a ≠ ⊤ := Decimal.isFinite_iff ha
    simp only [hfinite]
    by_cases hbot : a = ⊥ <;> simp [htop, hbot]
  | equal =>
    cases ht
    refine ⟨rfl, rfl, rfl, fun m row hrow => ?_⟩
    obtain ⟨a, b, ha, hb, htop, hbot, htype⟩ := type_of_madeRow rfl hrow
    obtain rfl : a = b := Option.some.inj (ha.symm.trans hb)
    rw [htype, BoundType.ofPlaces]
    have hfinite : (-d.constant).isFinite = true ↔ a ≠ ⊥ ∧ a ≠ ⊤ := Decimal.isFinite_iff ha
    simp only [hfinite]
    simp [htop, hbot]

/-- **Rows of a range have a fixed value when the moved bounds coincide.** -/
theorem ranged_between (h : between l e u = .ok c) : c.Ranged l e u := by
  unfold between at h
  split_ifs at h
  cases h
  refine ⟨rfl, rfl, rfl, fun q r hq hr m row hrow => ?_, fun hlost m row hrow => ?_⟩
  · obtain ⟨a, b, ha, hb, -, -, htype⟩ := type_of_madeRow rfl hrow
    obtain rfl : .ofRat q = a := Option.some.inj ((exactValue?_eq_some_iff.1 hq).symm.trans ha)
    obtain rfl : .ofRat r = b := Option.some.inj ((exactValue?_eq_some_iff.1 hr).symm.trans hb)
    rw [htype, BoundType.ofPlaces_ofRat]
  · obtain ⟨a, b, ha, hb, htop, hbot, htype⟩ := type_of_madeRow rfl hrow
    rw [Decimal.isFinite_iff ha, Decimal.isFinite_iff hb] at hlost
    have hinfinite : a = ⊥ ∨ b = ⊤ := by
      by_contra hfinite
      rw [not_or] at hfinite
      exact hlost ⟨⟨hfinite.1, htop⟩, hbot, hfinite.2⟩
    rw [htype, BoundType.ofPlaces]
    rcases hinfinite with rfl | rfl
    · by_cases hupper : b = ⊤ <;> simp [hupper]
    · by_cases hlower : a = ⊥ <;> simp [hlower]

end Constraint

/-! ### Operands -/

namespace Operand

variable {a b : Operand} {e : Expression} {s s' : Bool} {f g : (Variable → ℚ) → ℚ} {t : BoundType}
  {o : Relation} {sense : Sense} {c : Operand} {q : ℚ}

/-- An operand becomes an expression that stands for the same. -/
theorem gives_watchExpression (ha : a.Means s f) : Gives a.watchExpression (·.Means f) := by
  cases ha with
  | number hx =>
    exact (Number.gives_watchFloat hx).bind fun _ hy => .pure (Expression.means_ofFloat hy)
  | linear hx he => cases a <;> cases hx <;> exact .of rfl he

theorem gives_watchConstrain (sense : Sense) (ht : sense.relation.shape? = some t) (he : e.Means f)
    (hb : b.Means s g) : Gives (watchConstrain e sense b) fun x => ∃ c, x = made c ∧
      c.Says (fun a => sense.relation.Holds (f a) (g a)) t := by
  refine (gives_watchExpression hb).bind fun e' he' => ?_
  refine (Expression.gives_watchCombine Decimal.exactValue?_negOne he he').bind fun d hd => ?_
  refine (Constraint.gives_watchSense sense ht hd).bind fun c hc => .pure ⟨c, rfl, ?_⟩
  refine hc.congr rfl fun a => ?_
  cases sense <;> simp only [Sense.relation, Relation.Holds] <;>
    constructor <;> intro h <;> linarith

/-- Comparing an expression with something, in a way that makes a constraint. -/
theorem gives_watchCompareTo (ht : o.shape? = some t) (he : e.Means f) (hb : b.Means s g)
    (unordered : Fault) : Gives (watchCompareTo e o b unordered) fun x => ∃ c, x = made c ∧
      c.Says (fun a => o.Holds (f a) (g a)) t := by
  cases o with
  | le => exact gives_watchConstrain .atMost ht he hb
  | ge => exact gives_watchConstrain .atLeast ht he hb
  | eq => exact gives_watchConstrain .equal ht he hb
  | _ => cases ht

/-- A comparison as the variable or the expression in it sees it: if only the right side is one,
the sides are exchanged. -/
def seenBy (o : Relation) (a : Operand) : Relation := if a.linear?.isSome then o else o.flip

/-- Comparing two operands one of which is a variable or an expression. -/
theorem gives_watchCompare (ht : (seenBy o a).shape? = some t) (ha : a.Means s f)
    (hb : b.Means s' g) (hlinear : (s && s') = false) :
    Gives (watchCompare o a b) fun x => ∃ c, x = made c ∧
      c.Says (fun a => o.Holds (f a) (g a)) t := by
  unfold watchCompare
  cases ha with
  | linear ha hf =>
    rw [seenBy, ha] at ht
    simp only [ha]
    exact gives_watchCompareTo ht hf hb _
  | @number x q hx =>
    cases hb with
    | number hy => cases hlinear
    | linear hb hg =>
      simp only [hb]
      refine (gives_watchCompareTo ht hg (.number hx) _).mono fun y hy => ?_
      obtain ⟨c, rfl, hc⟩ := hy
      exact ⟨c, rfl, hc.congr rfl fun a => Relation.holds_flip o q (g a)⟩

/-- Keeping something between two finite numbers in order. -/
theorem gives_watchBetween {x y : Number} {q r : ℚ} (hx : x.value? = some q)
    (hy : y.value? = some r) (h : q ≤ r) (ha : a.Means s f) :
    Gives (watchBetween (.number x) a (.number y)) fun z => ∃ c, z = made c ∧
      c.Says (fun a => q ≤ f a ∧ f a ≤ r) (if q = r then .fixed else .range) := by
  refine (gives_watchExpression ha).bind fun e he => ?_
  refine (Number.gives_watchFloat hx).bind fun l hl => ?_
  refine (Number.gives_watchFloat hy).bind fun u hu => ?_
  exact (Constraint.gives_watchBetween hl hu h he).bind fun c hc => .pure ⟨c, rfl, hc⟩

/-! ### What is made, also where operations round -/

theorem toExpression_of_linear? (h : a.linear? = some e) : a.toExpression = .ok e := by
  cases a <;> cases h <;> rfl

/-- The difference of two sides, as the variable or the expression in them sees it. -/
def difference (a b : Operand) : Except Fault Expression := do
  if a.linear?.isSome then (← a.toExpression).sub (← b.toExpression)
  else (← b.toExpression).sub (← a.toExpression)

theorem sided_constrain {k : Constraint} (ht : sense.relation.shape? = some t)
    (h : constrain e sense b = .ok k) :
    ∃ e' d, b.toExpression = .ok e' ∧ e.sub e' = .ok d ∧ k.Sided t (-d.constant) := by
  obtain ⟨e', he', h⟩ := bind_eq_ok.1 h
  obtain ⟨d, hd, h⟩ := bind_eq_ok.1 h
  cases h
  exact ⟨e', d, he', hd, Constraint.sided_ofSense d sense ht⟩

theorem sided_compareTo {unordered : Fault} (ht : o.shape? = some t)
    (h : compareTo e o b unordered = .ok c) : ∃ e' d k, b.toExpression = .ok e' ∧
      e.sub e' = .ok d ∧ c = made k ∧ k.Sided t (-d.constant) := by
  have hmade : ∀ sense : Sense, sense.relation.shape? = some t →
      (do pure (made (← constrain e sense b)) : Except Fault Operand) = .ok c →
      ∃ e' d k, b.toExpression = .ok e' ∧ e.sub e' = .ok d ∧ c = made k ∧
        k.Sided t (-d.constant) := by
    intro sense ht h
    obtain ⟨k, hk, h⟩ := bind_eq_ok.1 h
    cases h
    obtain ⟨e', d, he', hd, hsided⟩ := sided_constrain ht hk
    exact ⟨e', d, k, he', hd, rfl, hsided⟩
  cases o with
  | le => exact hmade .atMost ht h
  | ge => exact hmade .atLeast ht h
  | eq => exact hmade .equal ht h
  | _ => cases ht

theorem sided_compare (ht : (seenBy o a).shape? = some t)
    (hlinear : a.linear?.isSome = true ∨ b.linear?.isSome = true) (h : compare o a b = .ok c) :
    ∃ d k, difference a b = .ok d ∧ c = made k ∧ k.Sided t (-d.constant) := by
  unfold compare at h
  unfold seenBy at ht
  unfold difference
  cases ha : a.linear? with
  | some e =>
    simp only [ha] at h ht
    obtain ⟨e', d, k, he', hd, rfl, hsided⟩ := sided_compareTo ht h
    refine ⟨d, k, ?_, rfl, hsided⟩
    rw [toExpression_of_linear? ha, he']
    exact hd
  | none =>
    cases hb : b.linear? with
    | some e =>
      simp only [ha, hb] at h ht
      obtain ⟨e', d, k, he', hd, rfl, hsided⟩ := sided_compareTo ht h
      refine ⟨d, k, ?_, rfl, hsided⟩
      rw [toExpression_of_linear? hb, he']
      exact hd
    | none => simp [ha, hb] at hlinear

theorem ranged_between {lower upper : Operand} (h : between lower a upper = .ok c) :
    ∃ l e u k, lower.toFloat = .ok l ∧ a.toExpression = .ok e ∧ upper.toFloat = .ok u ∧
      c = made k ∧ k.Ranged l e u := by
  obtain ⟨e, he, h⟩ := bind_eq_ok.1 h
  obtain ⟨l, hl, h⟩ := bind_eq_ok.1 h
  obtain ⟨u, hu, h⟩ := bind_eq_ok.1 h
  obtain ⟨k, hk, h⟩ := bind_eq_ok.1 h
  cases h
  exact ⟨l, e, u, k, hl, he, hu, rfl, Constraint.ranged_between hk⟩

/-! ### The whole -/

/-- **Comparisons mean what they say.** A comparison of variables, expressions and numbers makes a
constraint without a constant, whose rows have an upper bound for `≤`, a lower one for `≥` and a
fixed value for `=`, as the variable or the expression in it sees the comparison, unless the moved
constant is not finite. What is kept between two numbers has rows with a fixed value when the moved
bounds are finite and coincide, and with a range when they are finite and differ. Unless an
operation rounds or a factor is left out that is not zero, the constraint allows the assignments for
which the comparison of the values holds, and the moved bounds coincide when the numbers do. -/
theorem comparison_meaning :
    (∀ (o : Relation) (a b : Operand) (t : BoundType), (seenBy o a).shape? = some t →
      (a.linear?.isSome = true ∨ b.linear?.isSome = true →
        ∀ x, compare o a b = .ok x → ∃ d c, difference a b = .ok d ∧ x = made c ∧
          c.Sided t (-d.constant)) ∧
      ∀ s s' f g, a.Means s f → b.Means s' g → (s && s') = false →
        (watchCompare o a b).isLossless = true →
        ∃ c, compare o a b = .ok (made c) ∧ c.Says (fun v => o.Holds (f v) (g v)) t) ∧
    ∀ lower a upper : Operand,
      (∀ x, between lower a upper = .ok x → ∃ l e u c, lower.toFloat = .ok l ∧
        a.toExpression = .ok e ∧ upper.toFloat = .ok u ∧ x = made c ∧ c.Ranged l e u) ∧
      ∀ x y q r s f, lower = .number x → upper = .number y → x.value? = some q →
        y.value? = some r → q ≤ r → a.Means s f →
        (watchBetween lower a upper).isLossless = true →
        ∃ c, between lower a upper = .ok (made c) ∧
          c.Says (fun v => q ≤ f v ∧ f v ≤ r) (if q = r then .fixed else .range) := by
  refine ⟨fun o a b t ht => ⟨fun hlinear x => sided_compare ht hlinear, ?_⟩,
    fun lower a upper => ⟨fun x => ranged_between, ?_⟩⟩
  · intro s s' f g ha hb hlinear hlossless
    obtain ⟨x, hx, c, rfl, hc⟩ := gives_watchCompare ht ha hb hlinear hlossless
    rw [outcome_watchCompare] at hx
    exact ⟨c, hx, hc⟩
  · rintro x y q r s f rfl rfl hx hy h ha hlossless
    obtain ⟨z, hz, c, rfl, hc⟩ := gives_watchBetween hx hy h ha hlossless
    rw [outcome_watchBetween] at hz
    exact ⟨c, hz, hc⟩

/-- The expression of the sample's constraint. -/
def sampleLimit : Expression :=
  .ofFactors [(.first ⟨⟨0⟩, "n", .integer⟩, .integer 2),
    (.first ⟨⟨1⟩, "x", .continuous⟩, .real 1.0)] 0.0

/-- The sample's constraint, as the comparison of its expression with three makes it. -/
def sampleConstraint : Constraint := ⟨sampleLimit, none, Decimal.negativeInfinity, 3.0⟩

theorem sampleConstraint_made :
    ∃ row, MadeRow (Modeling.sample.models.get ⟨0⟩) sampleConstraint row := by
  obtain ⟨label, hlabel⟩ : ∃ label, Modeling.sample.constraints.get ⟨0⟩ =
      { sampleConstraint with name := label } := ⟨_, rfl⟩
  exact MadeRow.exists_of_computed (r := ⟨0⟩) (some "p") Modeling.sample_built ⟨_, rfl⟩
    (k := 0) rfl hlabel

/-- The sample's constraint has a row with an upper bound. -/
theorem sample_comparison_meaning : ∃ c row c',
    compare .le (.expression sampleLimit) (.number (.integer 3)) = .ok (.made c) ∧
    MadeRow (Modeling.sample.models.get ⟨0⟩) c row ∧ row.span.type = .upper ∧
    (∀ v, Within c.lower c.upper (c.expression.value v) ↔ sampleLimit.value v ≤ 3) ∧
    between (.number (.integer 1)) (.expression sampleLimit) (.number (.integer 3)) =
      .ok (.made c') ∧
    ∀ v, Within c'.lower c'.upper (c'.expression.value v) ↔
      1 ≤ sampleLimit.value v ∧ sampleLimit.value v ≤ 3 := by
  have hfinite : sampleLimit.IsFinite := by
    refine ⟨⟨0, Decimal.exactValue?_zero⟩, fun x hx => ?_⟩
    have hx : x ∈ [Number.integer 2, .real 1.0] := hx
    simp only [List.mem_cons, List.not_mem_nil, or_false] at hx
    rcases hx with rfl | rfl
    · exact ⟨2, rfl⟩
    · exact ⟨1, Decimal.exactValue?_one⟩
  have hlimit : (expression sampleLimit).Means false sampleLimit.value :=
    means_expression ⟨hfinite, fun _ => rfl⟩
  have hthree : (number (.integer 3)).Means true fun _ => 3 := .number rfl
  obtain ⟨row, hrow⟩ := sampleConstraint_made
  obtain ⟨c, hc, hmeans⟩ := (comparison_meaning.1 .le (.expression sampleLimit)
    (.number (.integer 3)) .upper rfl).2 _ _ _ _ hlimit hthree rfl (by decide +kernel)
  obtain ⟨c', hc', hmeans'⟩ := (comparison_meaning.2 (.number (.integer 1))
    (.expression sampleLimit) (.number (.integer 3))).2 _ _ 1 3 _ _ rfl rfl rfl rfl
    (by norm_num) hlimit (by decide +kernel)
  obtain rfl : sampleConstraint = c := by
    have hmade : Except.ok (made sampleConstraint) = .ok (made c) := Eq.trans (by rfl) hc
    injection Except.ok.inj hmade
  exact ⟨_, row, c', hc, hrow, hmeans.shape _ row hrow, hmeans.meaning, hc', hmeans'.meaning⟩

/-! ### Bounds that are rounded when they are moved -/

/-- The sample's continuous variable with a constant. -/
def shifted (c : Float) : Expression := .ofFactors [(.first ⟨⟨1⟩, "x", .continuous⟩, .real 1.0)] c

theorem means_shifted {c : Float} (h : (exactValue? c).isSome = true) :
    (expression (shifted c)).Means false (shifted c).value := by
  obtain ⟨q, hq⟩ := Option.isSome_iff_exists.1 h
  refine means_expression ⟨⟨⟨q, hq⟩, fun y hy => ?_⟩, fun _ => rfl⟩
  obtain rfl : y = .real 1.0 := List.mem_singleton.1 hy
  exact ⟨1, Decimal.exactValue?_one⟩

/-- The variable plus one between zero and a number so small that it is lost beside one. -/
def roundedRange : Constraint :=
  ⟨Expression.clean ⟨(shifted 1.0).factors, 0.0⟩, none, 0.0 - 1.0, 1e-20 - 1.0⟩

/-- The greatest power of two among the floats. -/
def greatestPower : Float := Float.ofBits 0x7FE0000000000000

/-- The variable minus a number is at most the number, whose double is no float. -/
def lostLimit : Constraint :=
  ⟨Expression.clean ⟨(shifted (-greatestPower)).factors, 0.0⟩, none, Decimal.negativeInfinity,
    Decimal.infinity⟩

/-- The sample with both constraints. -/
def sampleRounded : Workspace :=
  let w := (Modeling.newConstraint roundedRange).after Modeling.sample
  let w := (Modeling.newConstraint lostLimit).after w
  let w := (Modeling.addConstraint ⟨0⟩ ⟨1⟩ none).after w
  (Modeling.addConstraint ⟨0⟩ ⟨2⟩ none).after w

theorem sampleRounded_built : Modeling.Built false sampleRounded Modeling.sampleVariables := by
  refine .step ?_ (.addConstraint _ _ _)
  refine .step ?_ (.addConstraint _ _ _)
  refine .step ?_ (.newConstraint (.clean (.ofFactors _ _) 0.0))
  exact .step Modeling.sample_built (.newConstraint (.clean (.ofFactors _ _) 0.0))

theorem sampleRounded_rows :
    (∃ row, MadeRow (sampleRounded.models.get ⟨0⟩) roundedRange row) ∧
      ∃ row, MadeRow (sampleRounded.models.get ⟨0⟩) lostLimit row := by
  obtain ⟨label, hlabel⟩ : ∃ label, sampleRounded.constraints.get ⟨1⟩ =
      { roundedRange with name := label } := ⟨_, rfl⟩
  obtain ⟨label', hlabel'⟩ : ∃ label, sampleRounded.constraints.get ⟨2⟩ =
      { lostLimit with name := label } := ⟨_, rfl⟩
  exact ⟨MadeRow.exists_of_computed (r := ⟨0⟩) (some "p") sampleRounded_built ⟨_, rfl⟩
      (k := 1) rfl hlabel,
    MadeRow.exists_of_computed (r := ⟨0⟩) (some "p") sampleRounded_built ⟨_, rfl⟩
      (k := 2) rfl hlabel'⟩

theorem between_roundedRange : between (.number (.real 0.0)) (.expression (shifted 1.0))
    (.number (.real 1e-20)) = .ok (made roundedRange) := by rfl

theorem compare_lostLimit :
    compare .le (.expression (shifted (-greatestPower))) (.number (.real greatestPower)) =
    .ok (made lostLimit) := by rfl

/-- A range of different finite numbers can have a fixed value, and a comparison with a finite
number can have no bounds: the constant is lost, or too large, when it is moved. -/
theorem rounded_shapes :
    (¬∀ (a : Operand) (s : Bool) (f : (Variable → ℚ) → ℚ) (x y : Number) (q r : ℚ)
      (c : Constraint), a.Means s f → x.value? = some q → y.value? = some r → q ≤ r →
        between (.number x) a (.number y) = .ok (made c) → ∀ m row, MadeRow m c row →
          row.span.type = if q = r then .fixed else .range) ∧
    ¬∀ (a : Operand) (f : (Variable → ℚ) → ℚ) (x : Number) (q : ℚ) (c : Constraint),
      a.Means false f → x.value? = some q → compare .le a (.number x) = .ok (made c) →
        ∀ m row, MadeRow m c row → row.span.type = .upper := by
  obtain ⟨⟨range, hrange⟩, limit, hlimit⟩ := sampleRounded_rows
  refine ⟨fun h => ?_, fun h => ?_⟩
  · obtain ⟨r, hr, hpositive⟩ : ∃ r, exactValue? 1e-20 = some r ∧ 0 < r :=
      ⟨_, rfl, by decide +kernel⟩
    have htype := h _ _ _ (.real 0.0) (.real 1e-20) 0 r _ (means_shifted (by decide +kernel))
      Decimal.exactValue?_zero hr hpositive.le between_roundedRange _ range hrange
    obtain ⟨_, _, _, k, -, -, -, hk, hranged⟩ := ranged_between between_roundedRange
    cases hk
    rw [hranged.shape (-1) (-1) (by decide +kernel) (by decide +kernel) _ range hrange,
      if_pos rfl, if_neg hpositive.ne] at htype
    cases htype
  · obtain ⟨q, hq⟩ : ∃ q, exactValue? greatestPower = some q := ⟨_, rfl⟩
    have htype := h _ _ (.real greatestPower) q _ (means_shifted (by decide +kernel)) hq
      compare_lostLimit _ limit hlimit
    obtain ⟨a, b, ha, hb, -, -, hspan⟩ := Constraint.type_of_madeRow rfl hlimit
    obtain rfl : ⊥ = a := Option.some.inj (Decimal.place?_negativeInfinity.symm.trans ha)
    obtain rfl : ⊤ = b := Option.some.inj (Decimal.place?_infinity.symm.trans hb)
    rw [hspan, BoundType.ofPlaces, if_pos rfl, if_pos rfl] at htype
    cases htype

end Operand

end Optimization
