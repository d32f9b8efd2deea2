import Optimization.Proofs.Acceptance
import Optimization.Proofs.Meaning

/-!
# Bounds that come back

Engines keep a shape and the sides that it uses. Two floats that have a shape come back from it as
they were, whatever stands in for the sides that are not used, and so they come back from the row
or the column that they were set for.

* `classify_eq_error` : which floats have no shape, `eq_fixed_iff` : which have the fixed one;
* `Scalar.ReadsAs`, `BoundType.Agrees` : what is known of bounds that stand in for others;
* `Problem.span_setColumn`, `Problem.span_setRow` : the spans of rows and columns;
* `Problem.Reported` : what is said about bounds after some were set;
* `bounds_come_back` : the whole.

Floats count by their numbers, so that a zero comes back with either sign.
-/

namespace Optimization
open Decimal (place? infinity negativeInfinity beq_iff isNaN_iff Extended)

/-- A scalar reads as a float that equals a given one. -/
def Scalar.ReadsAs (x : Scalar) (y : Float) : Prop := ∃ z, x.toFloat = .ok z ∧ (z == y) = true

namespace BoundType

variable {lower upper : Float} {a b : Extended} {t : BoundType} {l u : Scalar}

/-! ### Shapes -/

/-- Floats that have no shape are refused as unusable values. -/
theorem category_of_classify {fault : Fault} (h : classify lower upper = .error fault) :
    fault.category = .value := by
  unfold classify at h
  split_ifs at h <;> cases h <;> rfl

/-- **The floats without a shape: not-a-number on a side, or an infinity on the wrong one.** -/
theorem not_succeeds_classify : ¬Succeeds (classify lower upper) ↔
    lower.isNaN = true ∨ upper.isNaN = true ∨ (lower == infinity) = true ∨
      (upper == negativeInfinity) = true := by
  unfold classify
  split_ifs with hnan hl hu
  · rw [Bool.or_eq_true] at hnan
    exact iff_of_true (not_succeeds_throw _) (by tauto)
  · exact iff_of_true (not_succeeds_throw _) (.inr (.inr (.inl hl)))
  · exact iff_of_true (not_succeeds_throw _) (.inr (.inr (.inr hu)))
  all_goals
    rw [Bool.or_eq_true] at hnan
    exact iff_of_false (not_not.2 (succeeds_pure _)) (by tauto)

theorem hasLower_ofPlaces (a b : Extended) : (ofPlaces a b).hasLower = decide (a ≠ ⊥) := by
  unfold ofPlaces
  split_ifs <;> simp_all [hasLower]

theorem hasUpper_ofPlaces (a b : Extended) : (ofPlaces a b).hasUpper = decide (b ≠ ⊤) := by
  unfold ofPlaces
  split_ifs <;> simp_all [hasUpper]

theorem ofPlaces_eq_fixed_iff : ofPlaces a b = .fixed ↔ a = b ∧ a ≠ ⊥ ∧ b ≠ ⊤ := by
  unfold ofPlaces
  split_ifs <;> simp_all

/-- The fixed shape is that of two equal finite floats. -/
theorem eq_fixed_iff (h : classify lower upper = .ok t) : t = .fixed ↔
    lower.isFinite = true ∧ upper.isFinite = true ∧ (lower == upper) = true := by
  obtain ⟨a, b, hl, hu, ha, hb, rfl⟩ := classify_eq_ok_iff.1 h
  rw [ofPlaces_eq_fixed_iff, Decimal.isFinite_iff hl, Decimal.isFinite_iff hu,
    Decimal.beq_eq_decide hl hu, decide_eq_true_eq]
  constructor
  · rintro ⟨rfl, hbot, htop⟩
    exact ⟨⟨hbot, htop⟩, ⟨hbot, htop⟩, rfl⟩
  · rintro ⟨hlower, hupper, rfl⟩
    exact ⟨rfl, hlower.1, hlower.2⟩

/-! ### Sides that stand in for others -/

/-- Two scalars read as two floats on the sides that a shape uses. -/
structure Agrees (t : BoundType) (l u : Scalar) (lower upper : Float) : Prop where
  lower : t.hasLower = true → l.ReadsAs lower
  upper : t.hasUpper = true → u.ReadsAs upper

/-- A shape is known by its code. -/
theorem ofCode_code (t : BoundType) : ofCode (.integer t.code) = .ok t := by
  cases t <;> rfl

/-- The side of a shape is read when the shape uses it, and an infinity otherwise. -/
theorem readCarried_eq_ok {x y : Float}
    (hx : (if t.hasLower then l.toFloat else pure negativeInfinity) = .ok x)
    (hy : (if t.hasUpper then u.toFloat else pure infinity) = .ok y) :
    t.readCarried l u = .ok (x, y) := by
  unfold readCarried
  split_ifs at hx hy ⊢ <;> rw [hx, hy] <;> rfl

/-- **The shape of two floats gives them back**, from all that agrees with them on its sides. -/
theorem readCarried_of_agrees (ht : classify lower upper = .ok t) (h : t.Agrees l u lower upper) :
    ∃ x, t.readCarried l u = .ok x ∧ (x == (lower, upper)) = true := by
  obtain ⟨a, b, hl, hu, -, -, rfl⟩ := classify_eq_ok_iff.1 ht
  have hlower : ∃ x, (if (ofPlaces a b).hasLower then l.toFloat else pure negativeInfinity) = .ok x ∧
      (x == lower) = true := by
    by_cases hside : (ofPlaces a b).hasLower = true
    · rw [if_pos hside]
      exact h.lower hside
    · rw [if_neg hside]
      rw [hasLower_ofPlaces, decide_eq_true_eq, not_not] at hside
      subst hside
      exact ⟨_, rfl, beq_iff.2 ⟨⊥, Decimal.place?_negativeInfinity, hl⟩⟩
  have hupper : ∃ x, (if (ofPlaces a b).hasUpper then u.toFloat else pure infinity) = .ok x ∧
      (x == upper) = true := by
    by_cases hside : (ofPlaces a b).hasUpper = true
    · rw [if_pos hside]
      exact h.upper hside
    · rw [if_neg hside]
      rw [hasUpper_ofPlaces, decide_eq_true_eq, not_not] at hside
      subst hside
      exact ⟨_, rfl, beq_iff.2 ⟨⊤, Decimal.place?_infinity, hu⟩⟩
  obtain ⟨x, hx, hxl⟩ := hlower
  obtain ⟨y, hy, hyu⟩ := hupper
  exact ⟨(x, y), readCarried_eq_ok hx hy, Bool.and_eq_true_iff.2 ⟨hxl, hyu⟩⟩

end BoundType

/-! ### Spans of rows and columns -/

namespace Problem

variable {p : Problem} {k : Nat} {lower upper : Float} {t : BoundType} {l u : Scalar}

theorem changeAt_changeAt {α : Type} (f g : α → α) (xs : List α) (i : Nat) :
    changeAt g (changeAt f xs i) i = changeAt (g ∘ f) xs i := by
  unfold changeAt
  split_ifs
  · rfl
  · exact List.modify_modify_eq f g _ xs

/-- A row that is set has the bounds that were set, the other rows keep theirs. -/
theorem span_setRow (hk : 1 ≤ k ∧ k ≤ p.rowCount) (name : String) (i : Nat) :
    ((p.setRow k name t lower upper).row i).span =
      if i = k then .keep t lower upper else (p.row i).span := by
  unfold setRow boundRow nameRow changeRow row
  rw [changeAt_changeAt, itemAt_changeAt _ hk.1 hk.2]
  split_ifs <;> rfl

/-- A kind leaves the span of a column alone when only a unit span is made binary. -/
theorem span_ofKind {c : Column} {kind : ColumnKind}
    (h : kind = .binary → c.span.isUnit = true) : (c.ofKind kind).span = c.span := by
  cases kind with
  | continuous => rfl
  | integer => rfl
  | binary =>
    simp only [Column.ofKind]
    rw [if_pos (h rfl)]

/-- A column that is set has the bounds that were set, the other columns keep theirs. -/
theorem span_setColumn (hk : 1 ≤ k ∧ k ≤ p.columnCount) (name : String) {kind : ColumnKind}
    (hunit : kind = .binary → (Span.keep t lower upper).isUnit = true) (j : Nat) :
    ((p.setColumn k name t lower upper kind).column j).span =
      if j = k then .keep t lower upper else (p.column j).span := by
  unfold setColumn typeColumn boundColumn nameColumn changeColumn column
  rw [changeAt_changeAt, changeAt_changeAt, itemAt_changeAt _ hk.1 hk.2]
  split_ifs
  · exact span_ofKind hunit
  · rfl

/-- The span from zero to one is a unit span, with either zero. -/
theorem isUnit_keep (ht : BoundType.classify lower upper = .ok t)
    (hl : place? lower = some (.ofRat 0)) (hu : place? upper = some (.ofRat 1)) :
    (Span.keep t lower upper).isUnit = true := by
  have hrange := BoundType.classify_of_place? hl hu (Decimal.ofRat_lt_top 0).ne
    (Decimal.bot_lt_ofRat 1).ne'
  rw [BoundType.ofPlaces_ofRat, if_neg zero_ne_one, ht] at hrange
  cases hrange
  have hzero : (lower == 0.0) = true := beq_iff.2 ⟨_, hl, Decimal.place?_zero⟩
  have hone : (upper == 1.0) = true := beq_iff.2 ⟨_, hu, Decimal.place?_one⟩
  simp [Span.isUnit, Span.keep, hzero, hone]

/-! ### Requests about bounds -/

variable {engine : Engine} {r : Ref Lifetime} {w : Workspace} {x name : Scalar}

/-- A question about a position is answered when the position can be read. -/
theorem askAt_run (h : w.problems.get? r = some (.live p)) (x : Scalar)
    (f : Problem → Nat → Answer) : (askAt r x f).run w = ((position x).map (f p), w) := by
  rw [askAt, Action.run_bind_of_ok _ (live_run h)]
  cases position x <;> rfl

theorem readKind_code (kind : ColumnKind) : readKind (.integer kind.code) = .ok kind := by
  cases kind <;> rfl

/-- Setting a row is done when all its arguments can be read. -/
theorem requestRow_run (h : w.problems.get? r = some (.live p))
    (hname : name.toText.length ≤ nameLimit) (hx : position x = .ok k)
    (hl : l.toFloat = .ok lower) (hu : u.toFloat = .ok upper) :
    (requestRow r x name t l u).run w = (.ok done,
      { w with problems := w.problems.put r (.live (p.setRow k name.toText t lower upper)) }) := by
  let w₁ := { w with problems := w.problems.put r (.live (p.nameRow k name.toText)) }
  have hnamed : (change r (·.nameRow k name.toText)).run w = (.ok (), w₁) := change_run _ h
  have hbounded := change_run (·.boundRow k t lower upper)
    (show w₁.problems.get? r = _ from Store.get?_put_self h)
  rw [Store.put_put] at hbounded
  rw [requestRow, Action.run_bind_of_ok _ (live_run h), Translation.limitName_of_le hname, hx, hl, hu]
  exact (Action.run_bind_of_ok _ hnamed).trans (Action.run_bind_of_ok _ hbounded)

/-- Setting a column is done when all its arguments can be read. -/
theorem requestColumn_run (h : w.problems.get? r = some (.live p))
    (hname : name.toText.length ≤ nameLimit) (hx : position x = .ok k)
    (hl : l.toFloat = .ok lower) (hu : u.toFloat = .ok upper) (kind : ColumnKind) :
    (requestColumn r x name t l u (.integer kind.code)).run w = (.ok done, { w with
      problems := w.problems.put r (.live (p.setColumn k name.toText t lower upper kind)) }) := by
  let w₁ := { w with problems := w.problems.put r (.live (p.nameColumn k name.toText)) }
  have hnamed : (change r (·.nameColumn k name.toText)).run w = (.ok (), w₁) := change_run _ h
  let w₂ := { w with
    problems := w.problems.put r (.live ((p.nameColumn k name.toText).boundColumn k t lower upper)) }
  have hbounded := change_run (·.boundColumn k t lower upper)
    (show w₁.problems.get? r = _ from Store.get?_put_self h)
  rw [Store.put_put] at hbounded
  have htyped := change_run (·.typeColumn k kind)
    (show w₂.problems.get? r = _ from Store.get?_put_self h)
  rw [Store.put_put] at htyped
  rw [requestColumn, Action.run_bind_of_ok _ (live_run h), Translation.limitName_of_le hname, hx, hl,
    hu, readKind_code]
  exact (Action.run_bind_of_ok _ hnamed).trans
    ((Action.run_bind_of_ok _ hbounded).trans (Action.run_bind_of_ok _ htyped))

/-- What is said about bounds after those of one row or one column were set: `ask` asks for the
bounds of its kind, `other` for those of the other kind. -/
structure Reported (engine : Engine) (r : Ref Lifetime) (ask other : Scalar → Request) (k : Nat)
    (t : BoundType) (lower upper : Float) (w w' : Workspace) : Prop where
  set : ∀ i, position i = .ok k → ∃ l u,
    (answer engine r (ask i)).run w' = (.ok (.bounds t l u), w') ∧
      ((l, u) == (lower, upper)) = true
  kept : ∀ i, position i ≠ .ok k →
    ((answer engine r (ask i)).run w').1 = ((answer engine r (ask i)).run w).1
  others : ∀ i, ((answer engine r (other i)).run w').1 = ((answer engine r (other i)).run w).1

/-- Bounds are reported from the span that was set and from those that stayed. -/
theorem Reported.of_spans {p' : Problem} {w' : Workspace} {ask other : Scalar → Request}
    {span span' : Problem → Nat → Span}
    (hask : ∀ i, answer engine r (ask i) = askAt r i fun p i => boundsAnswer (span p i))
    (hother : ∀ i, answer engine r (other i) = askAt r i fun p i => boundsAnswer (span' p i))
    (hp : w.problems.get? r = some (.live p)) (hp' : w'.problems.get? r = some (.live p'))
    (ht : BoundType.classify lower upper = .ok t)
    (hset : ∀ i, span p' i = if i = k then .keep t lower upper else span p i)
    (hkept : ∀ i, span' p' i = span' p i) :
    Reported engine r ask other k t lower upper w w' where
  set i hi := by
    obtain ⟨a, b, hl, hu, -⟩ := BoundType.classify_eq_ok_iff.1 ht
    obtain ⟨hlower, hupper⟩ := place?_keep ht
    refine ⟨_, _, ?_, Bool.and_eq_true_iff.2
      ⟨beq_iff.2 ⟨a, hlower.trans hl, hl⟩, beq_iff.2 ⟨b, hupper.trans hu, hu⟩⟩⟩
    rw [hask, askAt_run hp', hi, Except.map, hset, if_pos rfl, boundsAnswer, Span.type_keep]
  kept i hi := by
    rw [hask, askAt_run hp', askAt_run hp]
    cases hx : position i with
    | error fault => rfl
    | ok n =>
      have hn : n ≠ k := by
        rintro rfl
        exact hi hx
      rw [Except.map, Except.map, hset, if_neg hn]
  others i := by
    rw [hother, askAt_run hp', askAt_run hp]
    simp only [hkept]

/-- The bounds that are set for a row are those that it has afterwards. -/
theorem setRow_reported (hp : w.problems.get? r = some (.live p))
    (ht : BoundType.classify lower upper = .ok t) (hname : name.toText.length ≤ nameLimit)
    (hx : position x = .ok k) (hk : 1 ≤ k ∧ k ≤ p.rowCount) (hl : l.toFloat = .ok lower)
    (hu : u.toFloat = .ok upper) :
    ∃ w', (answer engine r (.setRow x name t l u)).run w = (.ok done, w') ∧
      Reported engine r .rowBounds .columnBounds k t lower upper w w' :=
  ⟨_, requestRow_run hp hname hx hl hu,
    .of_spans (fun _ => rfl) (fun _ => rfl) hp (Store.get?_put_self hp) ht (span_setRow hk _)
      fun _ => rfl⟩

/-- The bounds that are set for a column are those that it has afterwards, if its kind is that of a
variable with these bounds. -/
theorem setColumn_reported (hp : w.problems.get? r = some (.live p))
    (ht : BoundType.classify lower upper = .ok t) (hname : name.toText.length ≤ nameLimit)
    (hx : position x = .ok k) (hk : 1 ≤ k ∧ k ≤ p.columnCount) {b : Interval}
    (hl : b.lower.toFloat = .ok lower) (hu : b.upper.toFloat = .ok upper) (domain : Domain) :
    ∃ w', (answer engine r (.setColumn x name t b.lower b.upper
        (.integer (Translation.columnKind domain b).code))).run w = (.ok done, w') ∧
      Reported engine r .columnBounds .rowBounds k t lower upper w w' := by
  have hunit : Translation.columnKind domain b = .binary →
      (Span.keep t lower upper).isUnit = true := by
    intro hbinary
    obtain ⟨hzero, hone⟩ := places_of_columnKind hbinary hl hu
    exact isUnit_keep ht hzero hone
  exact ⟨_, requestColumn_run hp hname hx hl hu _,
    .of_spans (fun _ => rfl) (fun _ => rfl) hp (Store.get?_put_self hp) ht
      (span_setColumn hk _ hunit) fun _ => rfl⟩

end Problem

open Problem in
/-- **Bounds come back from their shape, and from the row or column that they were set for.** -/
theorem bounds_come_back (lower upper : Float) :
    (¬Succeeds (BoundType.classify lower upper) ↔
      lower.isNaN = true ∨ upper.isNaN = true ∨ (lower == infinity) = true ∨
        (upper == negativeInfinity) = true) ∧
    (∀ fault, BoundType.classify lower upper = .error fault → fault.category = .value) ∧
    ∀ t, BoundType.classify lower upper = .ok t →
      (∀ l u, t.Agrees l u lower upper →
        ∃ x, (BoundType.ofCode (.integer t.code) >>= fun t => t.readCarried l u) = .ok x ∧
          (x == (lower, upper)) = true) ∧
      (t = .fixed ↔
        lower.isFinite = true ∧ upper.isFinite = true ∧ (lower == upper) = true) ∧
      ∀ (engine : Engine) (r : Ref Lifetime) (w : Workspace) (p : Problem) (x name : Scalar)
        (k : Nat) (b : Interval), w.problems.get? r = some (.live p) →
        name.toText.length ≤ nameLimit → position x = .ok k → b.lower.toFloat = .ok lower →
        b.upper.toFloat = .ok upper →
        (1 ≤ k ∧ k ≤ p.rowCount → ∃ w',
          (answer engine r (.setRow x name t b.lower b.upper)).run w = (.ok done, w') ∧
            Reported engine r .rowBounds .columnBounds k t lower upper w w') ∧
        (1 ≤ k ∧ k ≤ p.columnCount → ∀ domain, ∃ w',
          (answer engine r (.setColumn x name t b.lower b.upper
            (.integer (Translation.columnKind domain b).code))).run w = (.ok done, w') ∧
            Reported engine r .columnBounds .rowBounds k t lower upper w w') := by
  refine ⟨BoundType.not_succeeds_classify, fun _ h => BoundType.category_of_classify h,
    fun t ht => ⟨fun l u h => ?_, BoundType.eq_fixed_iff ht, ?_⟩⟩
  · rw [BoundType.ofCode_code]
    exact BoundType.readCarried_of_agrees ht h
  · intro engine r w p x name k b hp hname hx hl hu
    exact ⟨fun hk => setRow_reported hp ht hname hx hk hl hu,
      fun hk domain => setColumn_reported hp ht hname hx hk hl hu domain⟩

/-- An engine that finds nothing. -/
def idleEngine : Engine := ⟨fun _ _ => {}, fun _ _ => {}, fun _ _ => .done none⟩

/-- A workspace with a problem of one row and one column. -/
def smallWorkspace : Workspace :=
  { problems := ({} : Store Lifetime).push (.live { columns := [{}], rows := [{}] }) }

open Problem in
/-- A column from a negative zero to one is made binary and keeps its bounds, and they come back
from the range shape. -/
theorem unit_bounds_come_back :
    BoundType.classify (-0.0) 1.0 = .ok .range ∧
    (∃ x, (BoundType.ofCode (.integer 4) >>= fun t => t.readCarried (.real 0.0) (.integer 1)) =
      .ok x ∧ (x == (-0.0, 1.0)) = true) ∧
    Translation.columnKind .integer ⟨.real (-0.0), .real 1.0⟩ = .binary ∧
    ∃ w', (answer idleEngine ⟨0⟩ (.setColumn (.integer 1) (.text "x") .range (.real (-0.0))
        (.real 1.0) (.integer 3))).run smallWorkspace = (.ok done, w') ∧
      Reported idleEngine ⟨0⟩ .columnBounds .rowBounds 1 .range (-0.0) 1.0 smallWorkspace w' := by
  have ht : BoundType.classify (-0.0) 1.0 = .ok .range := by rfl
  obtain ⟨-, -, h⟩ := bounds_come_back (-0.0) 1.0
  obtain ⟨hback, -, hset⟩ := h .range ht
  have hbinary : Translation.columnKind .integer ⟨.real (-0.0), .real 1.0⟩ = .binary := by
    decide +kernel
  have hcolumn := (hset idleEngine ⟨0⟩ smallWorkspace { columns := [{}], rows := [{}] } (.integer 1)
    (.text "x") 1 ⟨.real (-0.0), .real 1.0⟩ rfl (by decide) rfl rfl rfl).2 (by decide) .integer
  rw [hbinary] at hcolumn
  refine ⟨ht, ?_, hbinary, hcolumn⟩
  exact hback (.real 0.0) (.integer 1) ⟨fun _ => ⟨_, rfl, by decide⟩, fun _ => ⟨1.0, rfl, by decide⟩⟩

end Optimization
