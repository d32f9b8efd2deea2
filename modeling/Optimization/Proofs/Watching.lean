import Optimization.Formula
import Optimization.Proofs.Rounding
import Optimization.Proofs.Runs
import Mathlib.Data.List.Forall2

/-!
# Watched arithmetic

The arithmetic of numbers, expressions, operands and formulas with a record of what happens on the
way: the float operations that are performed, and the factors from which zeros are left out.

* `Watched` : an outcome and what happened;
* `Watched.isLossless` : no operation rounded, and no factor was left out that is not zero;
* `Watched.Gives` : without loss there is a result, and it has a property;
* `Formula.watch` and the operations that it is made of;
* `Formula.outcome_watch` : the outcome of a watched formula is that of the formula.
-/

namespace Optimization
open Decimal (Operation exactValue?)

/-- What happens while a formula is evaluated. -/
inductive Event
  /-- A float operation is performed. -/
  | operation (o : Operation)
  /-- A factor arises, whose term is left out if it counts as zero. -/
  | factor (x : Number)

/-- Nothing is lost: an operation does not round, and a factor that is not zero counts. -/
def Event.isLossless : Event → Bool
  | operation o => o.isExact
  | factor x => !x.isTrue || x.isSignificant

/-- An outcome and what happened on the way to it. -/
@[ext] structure Watched (α : Type) where
  outcome : Except Fault α
  events : List Event

namespace Watched

variable {α β : Type}

/-- An outcome on the way to which nothing happens. -/
def of (x : Except Fault α) : Watched α := ⟨x, []⟩

/-- Perform a float operation. -/
def perform (o : Operation) : Watched Float := ⟨.ok o.result, [.operation o]⟩

/-- Factors arise. -/
def note (xs : List Number) : Watched Unit := ⟨.ok (), xs.map .factor⟩

/-- What happens after an outcome; nothing does after a refusal. -/
def later (f : α → Watched β) : Except Fault α → List Event
  | .ok a => (f a).events
  | .error _ => []

instance : Monad Watched where
  pure a := of (.ok a)
  bind x f := ⟨x.outcome >>= fun a => (f a).outcome, x.events ++ later f x.outcome⟩

instance : LawfulMonad Watched := by
  refine .mk' Watched (fun x => ?_) (fun a f => ?_) fun x f g => ?_
  · obtain ⟨outcome, events⟩ := x
    cases outcome <;> exact Watched.ext rfl (List.append_nil events)
  · rfl
  · obtain ⟨outcome, events⟩ := x
    cases outcome with
    | error fault => exact Watched.ext rfl (List.append_nil _)
    | ok a => exact Watched.ext rfl (List.append_assoc ..)

/-- Nothing was lost on the way. -/
def isLossless (x : Watched α) : Bool := x.events.all Event.isLossless

/-! ### Outcomes -/

@[simp] theorem outcome_pure (a : α) : (pure a : Watched α).outcome = .ok a := rfl

@[simp] theorem outcome_of (x : Except Fault α) : (of x).outcome = x := rfl

@[simp] theorem outcome_perform (o : Operation) : (perform o).outcome = .ok o.result := rfl

@[simp] theorem outcome_note (xs : List Number) : (note xs).outcome = .ok () := rfl

@[simp] theorem outcome_ite (c : Prop) [Decidable c] (x y : Watched α) :
    (if c then x else y).outcome = if c then x.outcome else y.outcome := by
  split_ifs <;> rfl

@[simp] theorem outcome_bind (x : Watched α) (f : α → Watched β) :
    (x >>= f).outcome = x.outcome >>= fun a => (f a).outcome := rfl

@[simp] theorem outcome_mapM (f : α → Watched β) (xs : List α) :
    (xs.mapM f).outcome = xs.mapM fun x => (f x).outcome := by
  induction xs with
  | nil => rfl
  | cons x xs ih =>
    simp only [List.mapM_cons, outcome_bind, outcome_pure, ih]
    rfl

@[simp] theorem outcome_foldlM (f : β → α → Watched β) (b : β) (xs : List α) :
    (xs.foldlM f b).outcome = xs.foldlM (fun b x => (f b x).outcome) b := by
  induction xs generalizing b with
  | nil => rfl
  | cons x xs ih => simp only [List.foldlM_cons, outcome_bind, ih]

/-! ### Results without loss -/

/-- Without loss there is a result, and it has a property. -/
def Gives (x : Watched α) (P : α → Prop) : Prop :=
  x.isLossless = true → ∃ a, x.outcome = .ok a ∧ P a

namespace Gives

variable {x : Watched α} {f : α → Watched β} {P P' : α → Prop} {Q : β → Prop} {a : α}

theorem pure (h : P a) : Gives (Pure.pure a) P := fun _ => ⟨a, rfl, h⟩

theorem of {r : Except Fault α} (hr : r = .ok a) (h : P a) : Gives (Watched.of r) P :=
  fun _ => ⟨a, hr, h⟩

theorem mono (hx : Gives x P) (h : ∀ a, P a → P' a) : Gives x P' := by
  intro hlossless
  obtain ⟨a, ha, hP⟩ := hx hlossless
  exact ⟨a, ha, h a hP⟩

/-- What is given is the outcome. -/
theorem outcome (hx : Gives x P) : Gives x fun a => x.outcome = .ok a ∧ P a := by
  intro hlossless
  obtain ⟨a, ha, hP⟩ := hx hlossless
  exact ⟨a, ha, ha, hP⟩

theorem bind (hx : Gives x P) (hf : ∀ a, P a → Gives (f a) Q) : Gives (x >>= f) Q := by
  intro h
  have hsplit : x.isLossless = true ∧ (later f x.outcome).all Event.isLossless = true := by
    rw [← Bool.and_eq_true, isLossless, ← List.all_append]
    exact h
  obtain ⟨a, ha, hP⟩ := hx hsplit.1
  rw [ha] at hsplit
  rw [outcome_bind, ha]
  exact hf a hP hsplit.2

/-- An operation that is performed does not round. -/
theorem performed (o : Operation) :
    Gives (Watched.perform o) fun x => x = o.result ∧ o.isExact = true := by
  intro hlossless
  refine ⟨o.result, rfl, rfl, ?_⟩
  simpa [Watched.perform, isLossless, Event.isLossless] using hlossless

/-- An operation with an ideal result gives it. -/
theorem perform {o : Operation} {q : ℚ} (h : o.ideal? = some q) :
    Gives (Watched.perform o) fun x => x = o.result ∧ exactValue? x = some q :=
  (performed o).mono fun _ hx => ⟨hx.1, hx.1 ▸ Operation.result_of_isExact hx.2 h⟩

/-- Factors that arise are zero or count. -/
theorem note (xs : List Number) :
    Gives (Watched.note xs) fun _ => ∀ x ∈ xs, x.isTrue = true → x.isSignificant = true := by
  intro h
  refine ⟨(), rfl, fun x hx htrue => ?_⟩
  have hfactor := List.all_eq_true.1 h (.factor x) (List.mem_map_of_mem hx)
  simpa [Event.isLossless, htrue] using hfactor

theorem mapM {R : α → β → Prop} {xs : List α} (h : ∀ x ∈ xs, Gives (f x) (R x)) :
    Gives (xs.mapM f) fun ys => List.Forall₂ R xs ys := by
  induction xs with
  | nil => exact pure .nil
  | cons x xs ih =>
    rw [List.mapM_cons]
    refine bind (h x List.mem_cons_self) fun y hy => ?_
    refine bind (ih fun x' hx' => h x' (List.mem_cons_of_mem x hx')) fun ys hys => ?_
    exact pure (.cons hy hys)

end Gives

end Watched

open Watched (perform note)

/-! ### Numbers -/

namespace Number

/-- Watch a number become a float. -/
def watchFloat : Number → Watched Float
  | integer n => do
    let x ← perform (.ofInteger n)
    if x.isInf then .of (throw .tooLarge) else pure x
  | x => .of x.toFloat

/-- Watch two numbers become floats and then an operation of floats. -/
def watchFloats (f : Float → Float → Watched Number) (a b : Number) : Watched Number := do
  let x ← a.watchFloat
  let y ← b.watchFloat
  f x y

/-- Watch an operation of the integers or the one of the floats. -/
def watchLift (onInts : Int → Int → Int) (onFloats : Float → Float → Operation) (a b : Number) :
    Watched Number :=
  match a.whole?, b.whole? with
  | some m, some n => pure (integer (onInts m n))
  | _, _ => watchFloats (fun x y => do pure (real (← perform (onFloats x y)))) a b

/-- Watch the quotient of two integers. -/
def watchDivideIntegers (m n : Int) : Watched Float :=
  if n = 0 then .of (throw .integerDivision)
  else do
    let x ← perform (.ofRatio m n)
    if x.isInf then .of (throw .tooLarge) else pure x

/-- Watch a quotient of floats. -/
def watchDivideFloats (x y : Float) : Watched Number :=
  if y == 0.0 then .of (throw .floatDivision) else do pure (real (← perform (.div x y)))

/-- Watch a quotient. -/
def watchDiv (a b : Number) : Watched Number :=
  match a.whole?, b.whole? with
  | some m, some n => do pure (real (← watchDivideIntegers m n))
  | _, _ => watchFloats watchDivideFloats a b

@[simp] theorem outcome_watchFloat (x : Number) : x.watchFloat.outcome = x.toFloat := by
  cases x with
  | integer n =>
    simp only [watchFloat, Watched.outcome_bind, Watched.outcome_ite]
    rfl
  | _ => rfl

theorem outcome_watchFloats (f : Float → Float → Watched Number) (a b : Number) :
    (watchFloats f a b).outcome =
      a.toFloat >>= fun x => b.toFloat >>= fun y => (f x y).outcome := by
  simp only [watchFloats, Watched.outcome_bind, outcome_watchFloat]

theorem outcome_watchLift (onInts : Int → Int → Int) (onFloats : Float → Float → Operation)
    (a b : Number) : (watchLift onInts onFloats a b).outcome =
      lift onInts (fun x y => (onFloats x y).result) a b := by
  have hfloats := outcome_watchFloats (fun x y => do pure (real (← perform (onFloats x y)))) a b
  unfold watchLift lift
  cases a.whole? <;> cases b.whole? <;> first | rfl | exact hfloats

theorem outcome_watchDivideIntegers (m n : Int) :
    (watchDivideIntegers m n).outcome = divideIntegers m n := by
  simp only [watchDivideIntegers, Watched.outcome_ite, Watched.outcome_bind]
  rfl

theorem outcome_watchDivideFloats (x y : Float) : (watchDivideFloats x y).outcome =
    if y == 0.0 then throw .floatDivision else pure (real (x / y)) := by
  rw [watchDivideFloats, Watched.outcome_ite]
  rfl

theorem outcome_watchDiv (a b : Number) : (watchDiv a b).outcome = a.div b := by
  have hfloats := outcome_watchFloats watchDivideFloats a b
  simp only [outcome_watchDivideFloats] at hfloats
  unfold watchDiv div
  cases a.whole? with
  | none => exact hfloats
  | some m =>
    cases b.whole? with
    | none => exact hfloats
    | some n =>
      simp only [Watched.outcome_bind, outcome_watchDivideIntegers]
      rfl

end Number

/-! ### Expressions -/

namespace Expression

/-- Watch the terms being left out whose factor counts as zero. -/
def watchClean (e : Expression) : Watched Expression := do
  note (e.factors.map Prod.snd)
  pure e.clean

/-- Watch a float being added to the factor of a power. -/
def watchAccumulate (factors : List (Power × Number)) (p : Power) (x : Float) :
    Watched (List (Power × Number)) := do
  let old ← match factors.lookup p with
    | some y => y.watchFloat
    | none => pure 0.0
  pure (Keyed.put p (.real (← perform (.add old x))) factors)

/-- Watch a multiple of the terms of an expression being added to given factors. -/
def watchMerge (sign : Float) (xs ys : List (Power × Number)) : Watched (List (Power × Number)) :=
  ys.foldlM (fun xs (p, y) => do
    watchAccumulate xs p (← perform (.mul sign (← y.watchFloat)))) xs

/-- Watch the left expression and the right one times a sign. -/
def watchCombine (sign : Float) (a b : Expression) : Watched Expression := do
  let factors ← watchMerge sign a.factors b.factors
  let constant ← perform (.add a.constant (← perform (.mul sign b.constant)))
  watchClean ⟨factors, constant⟩

/-- Watch an expression and a number times a sign. -/
def watchShift (sign : Float) (a : Expression) (x : Number) : Watched Expression := do
  let constant ← perform (.add a.constant (← perform (.mul sign (← x.watchFloat))))
  pure { a with constant }

/-- Watch a multiple of an expression. -/
def watchScaleFloat (a : Expression) (s : Float) : Watched Expression := do
  let factors ← a.factors.mapM fun (p, x) => do
    pure (p, Number.real (← perform (.mul (← x.watchFloat) s)))
  watchClean ⟨factors, ← perform (.mul a.constant s)⟩

/-- Watch the product of an expression and a number. -/
def watchScale (a : Expression) (x : Number) : Watched Expression := do
  watchScaleFloat a (← x.watchFloat)

/-- Watch the quotient of an expression by a number. -/
def watchDivide (a : Expression) (x : Number) : Watched Expression := do
  let y ← x.watchFloat
  if y == 0.0 then .of (throw .floatDivision)
  else watchScaleFloat a (← perform (.div 1.0 y))

/-- Watch the negative of an expression. -/
def watchNegate (a : Expression) : Watched Expression := watchScaleFloat a (-1.0)

@[simp] theorem outcome_watchClean (e : Expression) : e.watchClean.outcome = .ok e.clean := rfl

theorem outcome_watchAccumulate (factors : List (Power × Number)) (p : Power) (x : Float) :
    (watchAccumulate factors p x).outcome = accumulate factors p x := by
  unfold watchAccumulate accumulate
  cases factors.lookup p with
  | none => rfl
  | some y =>
    simp only [Watched.outcome_bind, Number.outcome_watchFloat]
    rfl

theorem outcome_watchMerge (sign : Float) (xs ys : List (Power × Number)) :
    (watchMerge sign xs ys).outcome = mergeFactors sign xs ys := by
  unfold watchMerge mergeFactors
  rw [Watched.outcome_foldlM]
  congr 1
  funext xs ⟨p, y⟩
  simp only [Watched.outcome_bind, Number.outcome_watchFloat, outcome_watchAccumulate]
  rfl

theorem outcome_watchCombine (sign : Float) (a b : Expression) :
    (watchCombine sign a b).outcome = combine sign a b := by
  unfold watchCombine combine
  simp only [Watched.outcome_bind, outcome_watchMerge]
  rfl

theorem outcome_watchShift (sign : Float) (a : Expression) (x : Number) :
    (watchShift sign a x).outcome = shift sign a x := by
  unfold watchShift shift
  simp only [Watched.outcome_bind, Number.outcome_watchFloat]
  rfl

theorem outcome_watchScaleFloat (a : Expression) (s : Float) :
    (watchScaleFloat a s).outcome = scaleFloat a s := by
  unfold watchScaleFloat scaleFloat
  simp only [Watched.outcome_bind, Watched.outcome_mapM, Number.outcome_watchFloat]
  rfl

theorem outcome_watchScale (a : Expression) (x : Number) :
    (watchScale a x).outcome = scale a x := by
  unfold watchScale scale
  simp only [Watched.outcome_bind, Number.outcome_watchFloat, outcome_watchScaleFloat]

theorem outcome_watchDivide (a : Expression) (x : Number) :
    (watchDivide a x).outcome = divide a x := by
  unfold watchDivide divide
  simp only [Watched.outcome_bind, Number.outcome_watchFloat]
  congr 1
  funext y
  split_ifs
  · rfl
  · exact outcome_watchScaleFloat a _

theorem outcome_watchNegate (a : Expression) : a.watchNegate.outcome = a.negate :=
  outcome_watchScaleFloat a _

end Expression

/-! ### Constraints -/

namespace Constraint

/-- Watch the constraint `e sense 0` being made. -/
def watchSense (e : Expression) (sense : Sense) : Watched Constraint := do
  let clean ← Expression.watchClean ⟨e.factors, 0.0⟩
  pure { ofSense e sense with expression := clean }

/-- Watch the constraint `lower <= e <= upper` being made. -/
def watchBetween (lower : Float) (e : Expression) (upper : Float) : Watched Constraint :=
  if lower > upper then .of (throw (.invertedRange lower upper))
  else do
    let clean ← Expression.watchClean ⟨e.factors, 0.0⟩
    let lower ← perform (.sub lower e.constant)
    let upper ← perform (.sub upper e.constant)
    pure ⟨clean, none, lower, upper⟩

theorem outcome_watchSense (e : Expression) (sense : Sense) :
    (watchSense e sense).outcome = .ok (ofSense e sense) := rfl

theorem outcome_watchBetween (lower : Float) (e : Expression) (upper : Float) :
    (watchBetween lower e upper).outcome = between lower e upper := by
  unfold watchBetween between
  split_ifs <;> rfl

end Constraint

/-! ### Operands -/

namespace Operand

/-- Watch two numbers being combined; powers are not watched. -/
def watchNumbers (op : Operator) (x y : Number) : Watched Operand :=
  match op with
  | .add => do pure (number (← Number.watchLift (· + ·) .add x y))
  | .sub => do pure (number (← Number.watchLift (· - ·) .sub x y))
  | .mul => do pure (number (← Number.watchLift (· * ·) .mul x y))
  | .div => do pure (number (← x.watchDiv y))
  | .pow => .of (combineNumbers .pow x y)

/-- Watch two operands being combined neither of which is a variable or an expression. -/
def watchOthers (op : Operator) (a b : Operand) : Watched Operand :=
  match a, b with
  | number x, number y => watchNumbers op x y
  | a, b => .of (combineOthers op a b)

/-- Watch something times a sign being added to an expression. -/
def watchTogether (sign : Float) (op : Operator) (e : Expression) (b : Operand) :
    Watched Operand :=
  match b.linear?, b with
  | some e', _ => do pure (expression (← e.watchCombine sign e'))
  | none, number x => do pure (expression (← e.watchShift sign x))
  | none, b => .of (throw (.undefinedOperator op .expression b.kind))

/-- Watch an expression, which stands on the right, being added to something that is none. -/
def watchReflected (a b : Operand) (e : Expression) : Watched Operand :=
  match a with
  | number x => do pure (expression (← e.watchShift 1.0 x))
  | a => .of (addReflected a b e)

/-- Watch an expression being multiplied by something. -/
def watchScaleBy (e : Expression) : Operand → Watched Operand
  | number x => do pure (expression (← e.watchScale x))
  | b => .of (scaleBy e b)

/-- Watch something being divided by something, where one side is a variable or an expression. -/
def watchDivide (a b : Operand) : Watched Operand :=
  match a.linear?, b with
  | some e, number x => do pure (expression (← e.watchDivide x))
  | _, _ => .of (divide a b)

/-- Watch two operands being combined. -/
def watchCombine (op : Operator) (a b : Operand) : Watched Operand :=
  match a.linear?, b.linear? with
  | none, none => watchOthers op a b
  | some e, _ =>
    match op with
    | .add => watchTogether 1.0 .add e b
    | .sub => watchTogether (-1.0) .sub e b
    | .mul => watchScaleBy e b
    | .div => watchDivide a b
    | .pow => .of (raise a b)
  | none, some e =>
    match op with
    | .add => watchReflected a b e
    | .sub => do watchTogether 1.0 .add (← e.watchNegate) a
    | .mul => watchScaleBy e a
    | .div => watchDivide a b
    | .pow => .of (raise a b)

/-- Watch an operand being negated. -/
def watchNegate (a : Operand) : Watched Operand :=
  match a.linear? with
  | some e => do pure (expression (← e.watchNegate))
  | none => .of a.negate

/-- Watch operands being added from the left to the integer zero. -/
def watchSum (xs : List Operand) : Watched Operand :=
  xs.foldlM (watchCombine .add) (scalar (.integer 0))

/-- Watch an operand become an expression. -/
def watchExpression : Operand → Watched Expression
  | number x => do pure (.ofFloat (← x.watchFloat))
  | a => .of a.toExpression

/-- Watch an operand become a float. -/
def watchFloat : Operand → Watched Float
  | number x => x.watchFloat
  | a => .of a.toFloat

/-- Watch an expression being compared with something. -/
def watchConstrain (e : Expression) (sense : Sense) (b : Operand) : Watched Operand := do
  let difference ← e.watchCombine (-1.0) (← b.watchExpression)
  pure (made (← Constraint.watchSense difference sense))

/-- Watch an expression being compared with something, in any way. -/
def watchCompareTo (e : Expression) (r : Relation) (b : Operand) (unordered : Fault) :
    Watched Operand :=
  match r with
  | .le => watchConstrain e .atMost b
  | .ge => watchConstrain e .atLeast b
  | .eq => watchConstrain e .equal b
  | r => .of (compareTo e r b unordered)

/-- Watch two operands being compared. -/
def watchCompare (r : Relation) (a b : Operand) : Watched Operand :=
  match a.linear?, b.linear? with
  | some e, _ => watchCompareTo e r b (.undefinedOrder r a.kind b.kind)
  | none, some e => watchCompareTo e r.flip a (.undefinedOrder r a.kind b.kind)
  | none, none => .of (compareOthers r a b)

/-- Watch something being kept between two bounds. -/
def watchBetween (lower e upper : Operand) : Watched Operand := do
  let e ← e.watchExpression
  let lower ← lower.watchFloat
  let upper ← upper.watchFloat
  pure (made (← Constraint.watchBetween lower e upper))

theorem outcome_watchNumbers (op : Operator) (x y : Number) :
    (watchNumbers op x y).outcome = combineNumbers op x y := by
  cases op <;>
    simp only [watchNumbers, combineNumbers, Watched.outcome_bind, Number.outcome_watchLift,
      Number.outcome_watchDiv, Watched.outcome_of] <;> rfl

theorem outcome_watchOthers (op : Operator) (a b : Operand) :
    (watchOthers op a b).outcome = combineOthers op a b := by
  unfold watchOthers
  split
  · exact outcome_watchNumbers op _ _
  · rfl

theorem outcome_watchTogether_add (e : Expression) (b : Operand) :
    (watchTogether 1.0 .add e b).outcome = addTo e b := by
  unfold watchTogether addTo
  cases b.linear? with
  | some e' =>
    simp only [Watched.outcome_bind, Expression.outcome_watchCombine]
    rfl
  | none =>
    rcases b with (_ | x | _) | _
    case scalar.number =>
      simp only [Watched.outcome_bind, Expression.outcome_watchShift]
      rfl
    all_goals rfl

theorem outcome_watchTogether_sub (e : Expression) (b : Operand) :
    (watchTogether (-1.0) .sub e b).outcome = subFrom e b := by
  unfold watchTogether subFrom
  cases b.linear? with
  | some e' =>
    simp only [Watched.outcome_bind, Expression.outcome_watchCombine]
    rfl
  | none =>
    rcases b with (_ | x | _) | _
    case scalar.number =>
      simp only [Watched.outcome_bind, Expression.outcome_watchShift]
      rfl
    all_goals rfl

theorem outcome_watchReflected (a b : Operand) (e : Expression) :
    (watchReflected a b e).outcome = addReflected a b e := by
  unfold watchReflected
  split
  · simp only [Watched.outcome_bind, Expression.outcome_watchShift]
    rfl
  · rfl

theorem outcome_watchScaleBy (e : Expression) (b : Operand) :
    (watchScaleBy e b).outcome = scaleBy e b := by
  unfold watchScaleBy
  split
  · simp only [Watched.outcome_bind, Expression.outcome_watchScale]
    rfl
  · rfl

theorem outcome_watchDivide (a b : Operand) : (watchDivide a b).outcome = divide a b := by
  unfold watchDivide
  split
  · next e x h =>
    simp only [Watched.outcome_bind, Expression.outcome_watchDivide, divide, h]
    rfl
  · rfl

theorem outcome_watchCombine (op : Operator) (a b : Operand) :
    (watchCombine op a b).outcome = combine op a b := by
  unfold watchCombine combine
  cases a.linear? with
  | some e =>
    cases op with
    | add => exact outcome_watchTogether_add e b
    | sub => exact outcome_watchTogether_sub e b
    | mul => exact outcome_watchScaleBy e b
    | div => exact outcome_watchDivide a b
    | pow => rfl
  | none =>
    cases b.linear? with
    | none => exact outcome_watchOthers op a b
    | some e =>
      cases op with
      | add => exact outcome_watchReflected a b e
      | sub =>
        simp only [Watched.outcome_bind, Expression.outcome_watchNegate,
          outcome_watchTogether_add]
      | mul => exact outcome_watchScaleBy e a
      | div => exact outcome_watchDivide a b
      | pow => rfl

theorem outcome_watchNegate (a : Operand) : a.watchNegate.outcome = a.negate := by
  unfold watchNegate negate
  cases a.linear? with
  | some e =>
    simp only [Watched.outcome_bind, Expression.outcome_watchNegate]
    rfl
  | none => rfl

theorem outcome_watchSum (xs : List Operand) : (watchSum xs).outcome = sum xs := by
  unfold watchSum sum
  rw [Watched.outcome_foldlM]
  congr 1
  funext a b
  exact outcome_watchCombine .add a b

theorem outcome_watchExpression (a : Operand) : a.watchExpression.outcome = a.toExpression := by
  unfold watchExpression
  split
  · simp only [Watched.outcome_bind, Number.outcome_watchFloat]
    rfl
  · rfl

theorem outcome_watchFloat (a : Operand) : a.watchFloat.outcome = a.toFloat := by
  unfold watchFloat
  split
  · exact Number.outcome_watchFloat _
  · rfl

theorem outcome_watchConstrain (e : Expression) (sense : Sense) (b : Operand) :
    (watchConstrain e sense b).outcome = (constrain e sense b >>= fun c => pure (made c)) := by
  simp only [watchConstrain, constrain, Constraint.compare, Watched.outcome_bind,
    outcome_watchExpression, Expression.outcome_watchCombine, bind_assoc]
  rfl

theorem outcome_watchCompareTo (e : Expression) (r : Relation) (b : Operand) (unordered : Fault) :
    (watchCompareTo e r b unordered).outcome = compareTo e r b unordered := by
  cases r <;> first | rfl | exact outcome_watchConstrain e _ b

theorem outcome_watchCompare (r : Relation) (a b : Operand) :
    (watchCompare r a b).outcome = compare r a b := by
  unfold watchCompare compare
  cases a.linear? with
  | some e => exact outcome_watchCompareTo e r b _
  | none =>
    cases b.linear? with
    | some e => exact outcome_watchCompareTo e r.flip a _
    | none => rfl

theorem outcome_watchBetween (lower e upper : Operand) :
    (watchBetween lower e upper).outcome = between lower e upper := by
  simp only [watchBetween, between, Watched.outcome_bind, outcome_watchExpression,
    outcome_watchFloat, Constraint.outcome_watchBetween]
  rfl

end Operand

/-! ### Formulas -/

namespace Formula

mutual

/-- Watch a formula being evaluated. -/
def watch (env : String → Option Operand) : Formula → Watched Operand
  | value x => pure x
  | name s => .of (eval env (name s))
  | binary op a b => do
    let a ← watch env a
    let b ← watch env b
    Operand.watchCombine op a b
  | compare r a b => do
    let a ← watch env a
    let b ← watch env b
    Operand.watchCompare r a b
  | negate a => do
    let a ← watch env a
    a.watchNegate
  | between lower e upper => do
    let lower ← watch env lower
    let e ← watch env e
    let upper ← watch env upper
    Operand.watchBetween lower e upper
  | sum xs => do
    let xs ← watchAll env xs
    Operand.watchSum xs

/-- Watch several formulas being evaluated. -/
def watchAll (env : String → Option Operand) : List Formula → Watched (List Operand)
  | [] => pure []
  | a :: rest => do
    let x ← watch env a
    let xs ← watchAll env rest
    pure (x :: xs)

end

mutual

/-- **The outcome of a watched formula is that of the formula.** -/
theorem outcome_watch (env : String → Option Operand) (f : Formula) :
    (f.watch env).outcome = f.eval env := by
  cases f with
  | value x => rfl
  | name s => rfl
  | binary op a b =>
    simp only [watch, eval, Watched.outcome_bind, outcome_watch env a, outcome_watch env b,
      Operand.outcome_watchCombine]
  | compare r a b =>
    simp only [watch, eval, Watched.outcome_bind, outcome_watch env a, outcome_watch env b,
      Operand.outcome_watchCompare]
  | negate a =>
    simp only [watch, eval, Watched.outcome_bind, outcome_watch env a,
      Operand.outcome_watchNegate]
  | between lower e upper =>
    simp only [watch, eval, Watched.outcome_bind, outcome_watch env lower, outcome_watch env e,
      outcome_watch env upper, Operand.outcome_watchBetween]
  | sum xs =>
    simp only [watch, eval, Watched.outcome_bind, outcome_watchAll env xs,
      Operand.outcome_watchSum]

theorem outcome_watchAll (env : String → Option Operand) (fs : List Formula) :
    (watchAll env fs).outcome = evalAll env fs := by
  cases fs with
  | nil => rfl
  | cons a rest =>
    simp only [watchAll, evalAll, Watched.outcome_bind, outcome_watch env a,
      outcome_watchAll env rest]
    rfl

end

end Formula

end Optimization
