import Optimization.Proofs.Algebra
import Optimization.Proofs.Dropping
import Optimization.Proofs.Spots

/-!
# Sums of products

An expression can be made from a list of terms and a constant at one go, or by adding up products
of numbers and variables. The first way adds the factors of each variable before zeros are left out,
the second way leaves out zeros after each step, so that a variable can come and go. As long as no
operation rounds and no factor that is not zero counts as zero, both ways lead to the same
coefficients, in whatever order and association the products are added.

* `Expression.Spread`, `Expression.Collects` : where coefficients and constant lie;
* `Expression.collects_watchTerms` : the factors of a list of terms are added up;
* `Operand.tallies_add` : so are those of two operands;
* `Formula.SumOf` : the sums of given summands;
* `Formula.ofTerms_agrees` : the whole.

The product of an expression and a number multiplies the constant too. It is zero, and stays zero
for a finite factor only; `infinite_factor_differs` is about an infinite one.
-/

namespace Optimization
open Decimal (Operation Spot exactValue?)
open Watched (Gives perform)

/-! ### Spots of numbers -/

namespace Number

variable {x : Number} {q : ℚ}

/-- The spot of a number. -/
def spot (x : Number) : Spot := x.place?

theorem spot_of_value? (h : x.value? = some q) : x.spot = .ofRat q := by
  cases x with
  | real y => exact Decimal.spot_of_exactValue? h
  | _ =>
    obtain rfl := Option.some.inj h
    rfl

/-- A number becomes a float at its spot. -/
theorem spot_watchFloat (x : Number) :
    Gives x.watchFloat fun y => Decimal.spot y = x.spot ∧ exactValue? y = x.value? := by
  cases hx : x.value? with
  | some q =>
    refine (gives_watchFloat hx).mono fun y hy => ⟨?_, hy⟩
    rw [Decimal.spot_of_exactValue? hy, spot_of_value? hx]
  | none =>
    cases x with
    | real y => exact .of rfl ⟨rfl, hx⟩
    | _ => cases hx

/-- Where the product of zero and a number lies. -/
def offset (x : Number) : Spot := if x.value?.isSome then 0 else .nowhere

/-- What a multiple of a variable adds to a constant. -/
theorem spot_zero_mul {y : Float} (h : exactValue? y = x.value?) :
    Decimal.spot (0.0 * y) = x.offset := by
  unfold offset
  cases hx : x.value? with
  | some q => exact Decimal.spot_zero_mul (h.trans hx)
  | none => exact Decimal.spot_zero_mul_of_not_finite (h.trans hx)

end Number

/-! ### Spots of factors -/

namespace Expression

variable {xs ys : List (Power × Number)} {g h : Variable → Spot} {v w : Variable} {x : Number}
  {s : Spot}

/-- Where the factor of the first power of a variable lies; without a term it is zero. -/
def spotIn (xs : List (Power × Number)) (v : Variable) : Spot :=
  ((xs.lookup (.first v)).getD (.real 0.0)).spot

@[simp] theorem spotIn_nil : spotIn [] = 0 := by
  funext v
  exact Decimal.spot_of_exactValue? Decimal.exactValue?_zero

theorem spotIn_of_lookup_eq_none (h : xs.lookup (.first v) = none) : spotIn xs v = 0 := by
  rw [spotIn, h]
  exact congrFun spotIn_nil v

theorem spotIn_cons (v w : Variable) (x : Number) (xs : List (Power × Number)) :
    spotIn ((.first v, x) :: xs) w = if w = v then x.spot else spotIn xs w := by
  rw [spotIn, List.lookup_cons, beq_first]
  split_ifs with hw
  · rw [beq_iff_eq.2 hw, Option.getD_some]
  · rw [beq_eq_false_iff_ne.2 hw, spotIn]

theorem spotIn_put (v w : Variable) (x : Number) (xs : List (Power × Number)) :
    spotIn (Keyed.put (.first v) x xs) w = if w = v then x.spot else spotIn xs w := by
  split_ifs with hw
  · have hbeq : (Power.first w == Power.first v) = true := by rw [beq_first, hw, beq_self_eq_true]
    rw [spotIn, Keyed.lookup_put_of_beq hbeq, Option.getD_some]
  · have hbeq : (Power.first w == Power.first v) = false := by rwa [beq_first, beq_eq_false_iff_ne]
    rw [spotIn, Keyed.lookup_put_of_beq_eq_false hbeq, spotIn]

/-- Terms of different first powers whose factors lie at given spots. -/
structure Spread (xs : List (Power × Number)) (g : Variable → Spot) : Prop where
  firsts : ∀ t ∈ xs, ∃ v, t.1 = .first v
  distinct : Keyed.Distinct xs
  spot : spotIn xs = g

theorem spread_nil : Spread [] 0 := ⟨nofun, List.Pairwise.nil, spotIn_nil⟩


/-- A factor moves by a spot. -/
theorem Spread.put (hxs : Spread xs g) (hx : x.spot = g v + s) :
    Spread (Keyed.put (.first v) x xs) (g + Pi.single v s) where
  firsts t ht := by
    have hkey : t.1 ∈ (Keyed.put (.first v) x xs).map Prod.fst := List.mem_map_of_mem ht
    rw [Keyed.keys_put, List.mem_append] at hkey
    rcases hkey with hkey | hkey
    · obtain ⟨t', ht', heq⟩ := List.mem_map.1 hkey
      rw [← heq]
      exact hxs.firsts t' ht'
    · split_ifs at hkey
      · cases hkey
      · exact ⟨v, List.mem_singleton.1 hkey⟩
  distinct := hxs.distinct.put _ _
  spot := by
    funext w
    rw [spotIn_put, Pi.add_apply, ← hxs.spot]
    split_ifs with hw
    · subst hw
      rw [hx, Pi.single_eq_same, hxs.spot]
    · rw [Pi.single_eq_of_ne hw, add_zero]

theorem spread_singleton (v : Variable) (x : Number) :
    Spread [(.first v, x)] (Pi.single v x.spot) := by
  have hput := spread_nil.put (v := v) (x := x) (s := x.spot) (zero_add _).symm
  rwa [zero_add] at hput

/-- The first term and the others. -/
theorem Spread.of_cons (hxs : Spread ((.first v, x) :: xs) g) :
    Spread xs (spotIn xs) ∧ g = Pi.single v x.spot + spotIn xs := by
  refine ⟨⟨fun t ht => hxs.firsts t (List.mem_cons_of_mem _ ht), hxs.distinct.tail, rfl⟩, ?_⟩
  funext w
  rw [← hxs.spot, spotIn_cons, Pi.add_apply]
  split_ifs with hw
  · subst hw
    rw [Pi.single_eq_same, spotIn_of_lookup_eq_none hxs.distinct.lookup_head, add_zero]
  · rw [Pi.single_eq_of_ne hw, zero_add]

/-- Leaving out zeros moves no factor. -/
theorem Spread.filter (hxs : Spread xs g)
    (hcounts : ∀ t ∈ xs, t.2.isTrue = true → t.2.isSignificant = true) :
    Spread (xs.filter (·.2.isSignificant)) g where
  firsts t ht := hxs.firsts t (List.mem_filter.1 ht).1
  distinct := hxs.distinct.filter _
  spot := by
    induction xs generalizing g with
    | nil => exact hxs.spot
    | cons t xs ih =>
      obtain ⟨p, x⟩ := t
      obtain ⟨v, rfl⟩ := hxs.firsts _ List.mem_cons_self
      obtain ⟨hrest, hg⟩ := hxs.of_cons
      have ih := ih hrest fun t ht => hcounts t (List.mem_cons_of_mem _ ht)
      rw [List.filter_cons]
      split_ifs with hx
      · funext w
        rw [spotIn_cons, ih, ← hxs.spot, spotIn_cons]
      · -- a factor that is left out lies at zero
        have hzero : x.isTrue = false := by
          by_contra htrue
          exact hx (hcounts _ List.mem_cons_self (by simpa using htrue))
        have hspot : x.spot = 0 := Number.spot_of_value? (Number.value?_of_isTrue hzero)
        rw [ih, hg, hspot, Pi.single_zero, zero_add]

/-! ### Watched operations -/

/-- Adding a float to a factor moves it by the spot of the float. -/
theorem spread_watchAccumulate (hxs : Spread xs g) (v : Variable) (z : Float) :
    Gives (watchAccumulate xs (.first v) z) (Spread · (g + Pi.single v (Decimal.spot z))) := by
  -- the old factor is a float at its spot, zero where there is no term
  have hput : ∀ old, Decimal.spot old = g v →
      Gives (do pure (Keyed.put (.first v) (.real (← perform (.add old z))) xs))
        (Spread · (g + Pi.single v (Decimal.spot z))) := by
    intro old hold
    refine (Gives.performed (.add old z)).bind fun new hnew => ?_
    have hspot : (Number.real new).spot = g v + Decimal.spot z := by
      rw [← hold, hnew.1]
      exact Decimal.spot_add hnew.2
    exact .pure (hxs.put hspot)
  unfold watchAccumulate
  cases hv : xs.lookup (.first v) with
  | none =>
    refine hput 0.0 ?_
    rw [← hxs.spot, spotIn_of_lookup_eq_none hv]
    exact Decimal.spot_of_exactValue? Decimal.exactValue?_zero
  | some y =>
    refine (Number.spot_watchFloat y).bind fun old hold => hput old ?_
    rw [hold.1, ← hxs.spot, spotIn, hv, Option.getD_some]

/-- Merging terms adds the spots of their factors. -/
theorem spread_watchMerge (hxs : Spread xs g) (hys : Spread ys h) :
    Gives (watchMerge 1.0 xs ys) (Spread · (g + h)) := by
  induction ys generalizing xs g h with
  | nil =>
    obtain rfl : 0 = h := spotIn_nil.symm.trans hys.spot
    rw [add_zero]
    exact .pure hxs
  | cons t ys ih =>
    obtain ⟨p, y⟩ := t
    obtain ⟨v, rfl⟩ := hys.firsts _ List.mem_cons_self
    obtain ⟨hrest, rfl⟩ := hys.of_cons
    have hstep : Gives (do watchAccumulate xs (.first v) (← perform (.mul 1.0 (← y.watchFloat))))
        (Spread · (g + Pi.single v y.spot)) := by
      refine (Number.spot_watchFloat y).bind fun z hz => (Gives.performed _).bind fun u hu => ?_
      have hspot : Decimal.spot u = y.spot := by
        rw [hu.1, ← hz.1]
        exact Decimal.spot_one_mul hu.2
      rw [← hspot]
      exact spread_watchAccumulate hxs v u
    -- the rest is merged into what the first term leaves
    rw [← add_assoc]
    exact hstep.bind fun zs hzs => ih hzs hrest

/-- What remains after zeros are left out. -/
theorem spread_watchClean {e : Expression} (h : Spread e.factors g) :
    Gives e.watchClean fun e' =>
      Spread e'.factors g ∧ e'.Significant ∧ e'.constant = e.constant := by
  refine (Gives.note _).bind fun _ hcounts => .pure ⟨?_, significant_clean e, rfl⟩
  exact h.filter fun t ht => hcounts t.2 (List.mem_map_of_mem ht)

/-- The spots of the coefficients of all variables and that of the constant. -/
abbrev Tally := (Variable → Spot) × Spot

/-- An expression of first powers whose coefficients and constant lie at given spots, and none of
whose factors counts as zero. -/
structure Collects (e : Expression) (t : Tally) : Prop where
  spread : Spread e.factors t.1
  significant : e.Significant
  constant : Decimal.spot e.constant = t.2

variable {e e' : Expression} {t t' : Tally}

/-- A product with one, added to a float. -/
theorem spot_of_performed {a b u c : Float}
    (hu : u = 1.0 * b ∧ (Operation.mul 1.0 b).isExact = true)
    (hc : c = a + u ∧ (Operation.add a u).isExact = true) :
    Decimal.spot c = Decimal.spot a + Decimal.spot b := by
  rw [hc.1, Decimal.spot_add hc.2, hu.1, Decimal.spot_one_mul hu.2]

/-- A number is added to the constant. -/
theorem collects_watchShift (he : Collects e t) (x : Number) :
    Gives (watchShift 1.0 e x) (Collects · (t + (0, x.spot))) := by
  refine (Number.spot_watchFloat x).bind fun y hy => ?_
  refine (Gives.performed (.mul 1.0 y)).bind fun z hz => ?_
  refine (Gives.performed (.add e.constant z)).bind fun c hc => .pure ?_
  refine ⟨?_, he.significant, ?_⟩
  · rw [Prod.fst_add, add_zero]
    exact he.spread
  · rw [Prod.snd_add, ← he.constant, ← hy.1]
    exact spot_of_performed hz hc

/-- The sum of two expressions. -/
theorem collects_watchCombine (he : Collects e t) (he' : Collects e' t') :
    Gives (watchCombine 1.0 e e') (Collects · (t + t')) := by
  refine (spread_watchMerge he.spread he'.spread).bind fun zs hzs => ?_
  refine (Gives.performed (.mul 1.0 e'.constant)).bind fun z hz => ?_
  refine (Gives.performed (.add e.constant z)).bind fun c hc => ?_
  refine (spread_watchClean hzs).mono fun a ha => ⟨ha.1, ha.2.1, ?_⟩
  rw [ha.2.2, Prod.snd_add, ← he.constant, ← he'.constant]
  exact spot_of_performed hz hc

/-- The product of a number and a variable. -/
theorem collects_watchScale (v : Variable) (x : Number) :
    Gives (watchScale (ofVariable v) x) (Collects · (Pi.single v x.spot, x.offset)) := by
  refine (Number.spot_watchFloat x).bind fun y hy => ?_
  have hfactors : Gives ((ofVariable v).factors.mapM fun t => do
      pure (t.1, Number.real (← perform (.mul (← t.2.watchFloat) y))))
      (Spread · (Pi.single v x.spot)) := by
    refine (Gives.mapM (R := fun t z => z.1 = t.1 ∧ z.2.spot = x.spot) fun t ht => ?_).mono
      fun zs hzs => ?_
    · obtain rfl := List.mem_singleton.1 ht
      refine (Gives.of rfl rfl : Gives (Number.real 1.0).watchFloat (· = 1.0)).bind fun z hz => ?_
      obtain rfl := hz
      refine (Gives.performed (.mul 1.0 y)).bind fun u hu => .pure ⟨rfl, ?_⟩
      rw [← hy.1, ← Decimal.spot_one_mul hu.2]
      exact congrArg Decimal.spot hu.1
    · obtain ⟨z, rfl, hkey, hspot⟩ : ∃ z, zs = [z] ∧ z.1 = .first v ∧ z.2.spot = x.spot := by
        cases hzs with
        | cons hz hrest =>
          cases hrest
          exact ⟨_, rfl, hz⟩
      obtain ⟨p, z⟩ := z
      obtain rfl : p = .first v := hkey
      rw [← hspot]
      exact spread_singleton v z
  refine hfactors.bind fun zs hzs => ?_
  -- the constant of the variable is zero, and is multiplied too
  refine (Gives.performed (.mul 0.0 y)).bind fun c hc => ?_
  refine (spread_watchClean hzs).mono fun a ha => ⟨ha.1, ha.2.1, ?_⟩
  rw [ha.2.2]
  show Decimal.spot c = x.offset
  rw [hc.1]
  exact Number.spot_zero_mul hy.2

/-- Watch first powers with the given factors being added up, and zeros being left out then. -/
def watchTerms (pairs : List (Variable × Number)) (c : Number) : Watched Expression := do
  let start ← c.watchFloat
  let factors ← pairs.foldlM (fun xs (v, x) => do watchAccumulate xs (.first v) (← x.watchFloat)) []
  watchClean ⟨factors, start⟩

theorem outcome_watchTerms (pairs : List (Variable × Number)) (c : Number) :
    (watchTerms pairs c).outcome =
      ofTerms (pairs.map fun pair => (pair.1, .number pair.2)) (.number c) := by
  unfold watchTerms ofTerms ofConstant
  simp only [Watched.outcome_bind, Number.outcome_watchFloat, Watched.outcome_foldlM,
    outcome_watchAccumulate, List.foldlM_map, outcome_watchClean]
  show _ = (c.toFloat >>= fun start => pure (ofFloat start)) >>= _
  rw [bind_assoc]
  rfl

/-- The spots of the sums of the factors of each variable. -/
def totals (pairs : List (Variable × Number)) : Variable → Spot :=
  (pairs.map fun pair => Pi.single pair.1 pair.2.spot).sum

/-- **Terms that are added up one by one lie at the sums of their factors.** -/
theorem collects_watchTerms (pairs : List (Variable × Number)) (c : Number) :
    Gives (watchTerms pairs c) (Collects · (totals pairs, c.spot)) := by
  have hfold : ∀ xs g, Spread xs g →
      Gives (pairs.foldlM (fun xs (v, x) => do watchAccumulate xs (.first v) (← x.watchFloat)) xs)
        (Spread · (g + totals pairs)) := by
    unfold totals
    induction pairs with
    | nil =>
      intro xs g hxs
      rw [List.map_nil, List.sum_nil, add_zero]
      exact .pure hxs
    | cons pair pairs ih =>
      intro xs g hxs
      obtain ⟨v, x⟩ := pair
      rw [List.map_cons, List.sum_cons, ← add_assoc, List.foldlM_cons]
      refine Gives.bind (P := (Spread · (g + Pi.single v x.spot))) ?_ fun ys hys => ih ys _ hys
      refine (Number.spot_watchFloat x).bind fun z hz => ?_
      rw [← hz.1]
      exact spread_watchAccumulate hxs v z
  refine (Number.spot_watchFloat c).bind fun start hstart => ?_
  refine (hfold [] 0 spread_nil).bind fun factors hfactors => ?_
  rw [zero_add] at hfactors
  refine (spread_watchClean hfactors).mono fun e he => ⟨he.1, he.2.1, ?_⟩
  rw [he.2.2]
  exact hstart.1

/-! ### Expressions at the same spots -/

theorem Collects.isLinear (he : Collects e t) : e.isLinear = true := by
  refine List.all_eq_true.2 fun term hterm => ?_
  obtain ⟨v, hv⟩ := he.spread.firsts term hterm
  rw [hv]
  show (Scalar.number .one).same (.number .one) = true
  decide

theorem Collects.nodup (he : Collects e t) : (e.factors.map (·.1.var)).Nodup :=
  nodup_vars he.spread.distinct he.isLinear

/-- The coefficient of a variable lies where the tally says. -/
theorem Collects.spot_coefficient (he : Collects e t) (v : Variable) :
    (e.coefficient v).spot = t.1 v := congrFun he.spread.spot v

/-- A variable has a term when its coefficient is not at zero. -/
theorem Collects.mem_vars (he : Collects e t) (v : Variable) :
    v ∈ e.factors.map (·.1.var) ↔ t.1 v ≠ 0 := by
  rw [← he.spot_coefficient]
  constructor
  · intro hv
    obtain ⟨term, hterm, rfl⟩ := List.mem_map.1 hv
    rw [coefficient_of_mem he.isLinear he.nodup hterm]
    obtain ⟨p, hp, hne⟩ := Number.exists_place?_of_isSignificant (he.significant term hterm)
    intro hzero
    exact hne (Option.some.inj (hp.symm.trans hzero))
  · intro hne
    by_contra hv
    rw [coefficient_of_notMem he.isLinear hv] at hne
    exact hne (Decimal.spot_of_exactValue? Decimal.exactValue?_zero)

/-- A coefficient lies somewhere. -/
theorem Collects.coefficient_ne (he : Collects e t) (v : Variable) : t.1 v ≠ Spot.nowhere := by
  by_cases hv : v ∈ e.factors.map (·.1.var)
  · obtain ⟨term, hterm, rfl⟩ := List.mem_map.1 hv
    rw [← he.spot_coefficient, coefficient_of_mem he.isLinear he.nodup hterm]
    obtain ⟨p, hp, -⟩ := Number.exists_place?_of_isSignificant (he.significant term hterm)
    intro hnone
    exact absurd (hp.symm.trans hnone) nofun
  · have hzero := (he.mem_vars v).not.1 hv
    rw [not_not.1 hzero]
    nofun

/-- Expressions whose coefficients lie at the same spots have the same coefficients and as many
terms. -/
theorem Collects.agree (he : Collects e t) (he' : Collects e' t') (h : t.1 = t'.1) :
    (∀ v, (e.coefficient v).same (e'.coefficient v) = true) ∧ e.length = e'.length := by
  constructor
  · intro v
    obtain ⟨p, hp⟩ := Option.ne_none_iff_exists'.1 (he.coefficient_ne v)
    refine Number.same_iff.2 ⟨p, (he.spot_coefficient v).trans hp, ?_⟩
    exact (he'.spot_coefficient v).trans (h ▸ hp)
  · have hperm : (e.factors.map (·.1.var)).Perm (e'.factors.map (·.1.var)) := by
      rw [List.perm_ext_iff_of_nodup he.nodup he'.nodup]
      intro v
      rw [he.mem_vars, he'.mem_vars, h]
    simpa [length] using hperm.length_eq

end Expression

/-! ### Sums of operands -/

open Expression (Tally Collects totals)

namespace Operand

/-- An operand of given spots: a number, or an expression of first powers. -/
inductive Tallies : Operand → Tally → Prop
  | number (x : Number) : Tallies (.number x) (0, x.spot)
  | expression {e : Expression} {t : Tally} (h : Collects e t) : Tallies (.expression e) t

variable {a b : Operand} {s t : Tally}

/-- Without loss, a sum of numbers lies at the sum of their spots. -/
theorem spot_watchLift (x y : Number) :
    Gives (Number.watchLift (· + ·) .add x y) fun z => z.spot = x.spot + y.spot := by
  have hfloats : Gives (Number.watchFloats (fun u v => do pure (.real (← perform (.add u v)))) x y)
      fun z => z.spot = x.spot + y.spot := by
    refine (Number.spot_watchFloat x).bind fun u hu => ?_
    refine (Number.spot_watchFloat y).bind fun v hv => ?_
    refine (Gives.performed (.add u v)).bind fun w hw => .pure ?_
    rw [← hu.1, ← hv.1, ← Decimal.spot_add hw.2]
    exact congrArg Decimal.spot hw.1
  unfold Number.watchLift
  cases hm : x.whole? with
  | none => exact hfloats
  | some m =>
    cases hn : y.whole? with
    | none => exact hfloats
    | some n =>
      refine .pure ?_
      rw [Number.spot_of_value? (Number.value?_of_whole? hm),
        Number.spot_of_value? (Number.value?_of_whole? hn), Spot.ofRat_add_ofRat, ← Int.cast_add]
      rfl

/-- **A sum of operands has the sum of their tallies.** -/
theorem tallies_add (ha : a.Tallies s) (hb : b.Tallies t) :
    Gives (watchCombine .add a b) (·.Tallies (s + t)) := by
  cases ha with
  | number x =>
    cases hb with
    | number y =>
      refine (spot_watchLift x y).bind fun z hz => .pure ?_
      rw [Prod.mk_add_mk, add_zero, ← hz]
      exact .number z
    | expression h =>
      rw [watchCombine_right x rfl, add_comm]
      exact (Expression.collects_watchShift h x).bind fun e he => .pure (.expression he)
  | expression h =>
    rw [watchCombine_left rfl]
    cases hb with
    | number y =>
      exact (Expression.collects_watchShift h y).bind fun e he => .pure (.expression he)
    | expression h' =>
      exact (Expression.collects_watchCombine h h').bind fun e he => .pure (.expression he)

/-- A product of a number and a variable. -/
theorem tallies_mul (x : Number) (v : Variable) :
    Gives (watchCombine .mul (.number x) (.decision v))
      (·.Tallies (Pi.single v x.spot, x.offset)) := by
  rw [watchCombine_right x rfl]
  exact (Expression.collects_watchScale v x).bind fun e he => .pure (.expression he)

/-- An operand of given spots is an expression of these. -/
theorem collects_of_tallies (ha : a.Tallies t) : Gives a.watchExpression (Collects · t) := by
  cases ha with
  | number x =>
    refine (Number.spot_watchFloat x).bind fun y hy => .pure ?_
    exact ⟨Expression.spread_nil, nofun, hy.1⟩
  | expression h => exact .of rfl h

end Operand

/-! ### Sums of formulas -/

/-- What a sum is made of: numbers, and products of a number and a variable. -/
inductive Summand
  | constant (x : Number)
  | product (x : Number) (v : Variable)

/-- The spots that a summand adds. -/
def Summand.tally : Summand → Tally
  | constant x => (0, x.spot)
  | product x v => (Pi.single v x.spot, x.offset)

namespace Formula

variable {env : String → Option Operand} {f g : Formula} {ss ts : List Summand}

/-- The sums of given summands, in any association. -/
inductive SumOf (env : String → Option Operand) : Formula → List Summand → Prop
  | constant {f : Formula} {x : Number} (hf : f.watch env = pure (.number x)) :
    SumOf env f [.constant x]
  | product {f g : Formula} {x : Number} {v : Variable} (hf : f.watch env = pure (.number x))
    (hg : g.watch env = pure (.decision v)) : SumOf env (.binary .mul f g) [.product x v]
  | add {f g : Formula} {ss ts : List Summand} (hf : SumOf env f ss) (hg : SumOf env g ts) :
    SumOf env (.binary .add f g) (ss ++ ts)

/-- **A sum has the sum of the tallies of its summands.** -/
theorem SumOf.tallies (h : SumOf env f ss) :
    Gives (f.watch env) (·.Tallies (ss.map Summand.tally).sum) := by
  induction h with
  | @constant f x hf =>
    rw [hf, List.map_singleton, List.sum_singleton]
    exact .pure (.number x)
  | @product f g x v hf hg =>
    rw [watch, hf, hg, List.map_singleton, List.sum_singleton]
    exact Operand.tallies_mul x v
  | @add f g ss ts _ _ ihf ihg =>
    -- appended summands have the sum of both tallies
    rw [watch, List.map_append, List.sum_append]
    exact ihf.bind fun a ha => ihg.bind fun b hb => Operand.tallies_add ha hb

/-- The tallies of a constant and of products. -/
theorem sum_tally (pairs : List (Variable × Number)) (c : Number) :
    ((Summand.constant c :: pairs.map fun pair => .product pair.2 pair.1).map Summand.tally).sum =
      (totals pairs, c.spot + (pairs.map fun pair => pair.2.offset).sum) := by
  have hproducts : ((pairs.map fun pair => Summand.product pair.2 pair.1).map Summand.tally).sum =
      (totals pairs, (pairs.map fun pair => pair.2.offset).sum) := by
    unfold totals
    induction pairs with
    | nil => rfl
    | cons pair pairs ih =>
      simp only [List.map_cons, List.sum_cons, ih, Summand.tally, Prod.mk_add_mk]
  rw [List.map_cons, List.sum_cons, hproducts, Summand.tally, Prod.mk_add_mk, zero_add]

theorem sum_offset_of_finite {pairs : List (Variable × Number)}
    (h : ∀ pair ∈ pairs, pair.2.value?.isSome = true) :
    (pairs.map fun pair => pair.2.offset).sum = 0 := by
  refine List.sum_eq_zero fun s hs => ?_
  obtain ⟨pair, hpair, rfl⟩ := List.mem_map.1 hs
  exact if_pos (h pair hpair)

theorem sum_offset_of_not_finite {pairs : List (Variable × Number)}
    (h : ¬∀ pair ∈ pairs, pair.2.value?.isSome = true) :
    (pairs.map fun pair => pair.2.offset).sum = Spot.nowhere := by
  induction pairs with
  | nil => exact absurd nofun h
  | cons pair pairs ih =>
    rw [List.map_cons, List.sum_cons]
    by_cases hpair : pair.2.value?.isSome = true
    · have hrest := ih fun hrest => h (List.forall_mem_cons.2 ⟨hpair, hrest⟩)
      rw [hrest, Spot.add_nowhere]
    · rw [Number.offset, if_neg hpair, Spot.nowhere_add]

/-- **Adding up terms one by one agrees with the sum of the products**, in any order and
association: both have the same coefficients and as many terms. The terms keep the constant where it
is. The constant of the sum of the products lies there too, or both lie nowhere, if all factors are
finite; a factor that is not finite leaves no constant in the sum of the products. -/
theorem ofTerms_agrees {pairs : List (Variable × Number)} {c : Number} (hsum : SumOf env f ss)
    (hperm : ss.Perm (.constant c :: pairs.map fun pair => .product pair.2 pair.1))
    (hterms : (Expression.watchTerms pairs c).isLossless = true)
    (hformula : (f.watch env >>= Operand.watchExpression).isLossless = true) :
    ∃ e e', Expression.ofTerms (pairs.map fun pair => (pair.1, .number pair.2)) (.number c) =
        .ok e ∧
      (f.eval env >>= Operand.toExpression) = .ok e' ∧
      (∀ v, (e.coefficient v).same (e'.coefficient v) = true) ∧ e.length = e'.length ∧
      Decimal.place? e.constant = c.spot ∧
      if ∀ pair ∈ pairs, pair.2.value?.isSome = true then
        Decimal.place? e.constant = Decimal.place? e'.constant
      else e'.constant.isNaN = true := by
  obtain ⟨e, he, hcollects⟩ := Expression.collects_watchTerms pairs c hterms
  obtain ⟨e', he', hcollects'⟩ := (hsum.tallies.bind fun a ha =>
    Operand.collects_of_tallies ha) hformula
  rw [Expression.outcome_watchTerms] at he
  rw [Watched.outcome_bind, outcome_watch] at he'
  simp only [Operand.outcome_watchExpression] at he'
  -- the order of the summands does not matter to the sum of their tallies
  rw [(hperm.map Summand.tally).sum_eq, sum_tally] at hcollects'
  obtain ⟨hcoefficients, hlength⟩ := hcollects.agree hcollects' rfl
  refine ⟨e, e', he, he', hcoefficients, hlength, hcollects.constant, ?_⟩
  split_ifs with hfinite
  · have hconstant := hcollects'.constant
    rw [sum_offset_of_finite hfinite, add_zero] at hconstant
    exact hcollects.constant.trans hconstant.symm
  · have hconstant := hcollects'.constant
    rw [sum_offset_of_not_finite hfinite, Spot.add_nowhere] at hconstant
    exact Decimal.isNaN_iff.2 hconstant

/-- The terms `2 x`, `y / 2` and `-2 x`. -/
def samplePairs : List (Variable × Number) :=
  [(sampleX, .integer 2), (sampleY, .real 0.5), (sampleX, .integer (-2))]

/-- The sum `y / 2 + (-2 x + 3) + 2 x`. -/
def sampleSum : Formula :=
  .binary .add
    (.binary .add (.binary .mul (.value (.number (.real 0.5))) (.name "y"))
      (.binary .add (.binary .mul (.value (.number (.integer (-2)))) (.name "x"))
        (.value (.number (.integer 3)))))
    (.binary .mul (.value (.number (.integer 2))) (.name "x"))

/-- The sample leaves out a variable whose factors cancel each other, on both ways. -/
theorem samplePairs_agree : ∃ e e',
    Expression.ofTerms (samplePairs.map fun pair => (pair.1, .number pair.2)) (.integer 3) =
      .ok e ∧
    (sampleSum.eval sampleNames >>= Operand.toExpression) = .ok e' ∧
    (∀ v, (e.coefficient v).same (e'.coefficient v) = true) ∧ e.length = e'.length ∧
    Decimal.place? e.constant = Decimal.place? e'.constant := by
  have hsum : SumOf sampleNames sampleSum
      [.product (.real 0.5) sampleY, .product (.integer (-2)) sampleX, .constant (.integer 3),
        .product (.integer 2) sampleX] :=
    .add (.add (.product rfl rfl) (.add (.product rfl rfl) (.constant rfl))) (.product rfl rfl)
  have hperm : List.Perm
      ([Summand.product (.real 0.5) sampleY, .product (.integer (-2)) sampleX] ++
        [.constant (.integer 3), .product (.integer 2) sampleX])
      (.constant (.integer 3) :: samplePairs.map fun pair => .product pair.2 pair.1) :=
    List.perm_append_comm
  obtain ⟨e, e', he, he', hcoefficients, hlength, -, hconstant⟩ :=
    ofTerms_agrees hsum hperm (by decide +kernel) (by decide +kernel)
  exact ⟨e, e', he, he', hcoefficients, hlength, by rwa [if_pos (by decide +kernel)] at hconstant⟩

/-- The sum of zero and an infinite multiple of a variable. -/
def infiniteSum : Formula :=
  .binary .add (.value (.number (.real 0.0)))
    (.binary .mul (.value (.number (.real Decimal.infinity))) (.name "x"))

/-- An infinite factor makes the constants differ, although no operation rounds. -/
theorem infinite_factor_differs :
    SumOf sampleNames infiniteSum
        [.constant (.real 0.0), .product (.real Decimal.infinity) sampleX] ∧
      (Expression.watchTerms [(sampleX, .real Decimal.infinity)] (.real 0.0)).isLossless = true ∧
      (infiniteSum.watch sampleNames >>= Operand.watchExpression).isLossless = true ∧
      ∃ e e', Expression.ofTerms [(sampleX, .real Decimal.infinity)] (.real 0.0) = .ok e ∧
        (infiniteSum.eval sampleNames >>= Operand.toExpression) = .ok e' ∧
        (e.constant == 0.0) = true ∧ (e'.constant == 0.0) = false := by
  refine ⟨.add (.constant rfl) (.product rfl rfl), by decide +kernel, by decide +kernel,
    _, _, rfl, rfl, ?_, ?_⟩
  · decide +kernel
  · decide +kernel

end Formula

end Optimization
