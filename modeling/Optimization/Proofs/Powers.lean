import Optimization.Constraint
import Optimization.Proofs.Places
import Optimization.Proofs.Runs

/-!
# Powers in expressions

However an expression comes about, a power occurs in it once. In a linear expression all exponents
are one, so that a variable occurs once.

* `Formed` : the expressions that the operations on expressions make;
* `Formed.distinct` : their powers differ from each other;
* `nodup_vars` : the variables of a linear expression differ from each other.
-/

namespace Optimization
open Decimal (place? exactValue? exactValue?_eq_some_iff beq_iff)

/-! ### Lists of keyed entries -/

namespace Keyed

variable {κ ν : Type} [BEq κ]

/-- No key is equal to an earlier one. -/
def Distinct (xs : List (κ × ν)) : Prop :=
  (xs.map Prod.fst).Pairwise fun earlier later => (later == earlier) = false

theorem Distinct.put {xs : List (κ × ν)} (h : Distinct xs) (k : κ) (v : ν) :
    Distinct (put k v xs) := by
  unfold Distinct
  rw [keys_put]
  cases hk : xs.lookup k with
  | some y =>
    rw [Option.isSome_some, if_pos rfl, List.append_nil]
    exact h
  | none =>
    rw [List.pairwise_append]
    refine ⟨h, by simp, ?_⟩
    intro earlier hearlier later hlater
    obtain ⟨x, hx, rfl⟩ := List.mem_map.1 hearlier
    obtain rfl : later = k := by simpa using hlater
    simpa [bne] using List.lookup_eq_none_iff.1 hk x hx

theorem distinct_putAll {xs : List (κ × ν)} (h : Distinct xs) (entries : List (κ × ν)) :
    Distinct (entries.foldl (fun xs (k, v) => put k v xs) xs) := by
  induction entries generalizing xs with
  | nil => exact h
  | cons entry entries ih => exact ih (h.put entry.1 entry.2)

theorem distinct_ofEntries (entries : List (κ × ν)) : Distinct (ofEntries entries) := by
  have hnil : Distinct ([] : List (κ × ν)) := List.Pairwise.nil
  exact distinct_putAll hnil entries

theorem Distinct.filter {xs : List (κ × ν)} (h : Distinct xs) (f : κ × ν → Bool) :
    Distinct (xs.filter f) :=
  List.Pairwise.sublist (List.Sublist.map _ List.filter_sublist) h

end Keyed

namespace Expression

/-- A power occurs once. -/
def Distinct (e : Expression) : Prop := Keyed.Distinct e.factors

/-- The expressions that the operations on expressions make. -/
inductive Formed : Expression → Prop
  | ofVariable (v : Variable) : Formed (.ofVariable v)
  | ofFloat (x : Float) : Formed (.ofFloat x)
  | ofFactors (entries : List (Power × Number)) (constant : Float) :
    Formed (.ofFactors entries constant)
  | ofTerms {pairs : List (Variable × Scalar)} {constant : Scalar} {e : Expression}
    (h : ofTerms pairs constant = .ok e) : Formed e
  | power {v : Variable} {exponent : Scalar} {e : Expression} (h : power v exponent = .ok e) :
    Formed e
  | add {a b e : Expression} (ha : Formed a) (hb : Formed b) (h : a.add b = .ok e) : Formed e
  | sub {a b e : Expression} (ha : Formed a) (hb : Formed b) (h : a.sub b = .ok e) : Formed e
  | addNumber {a e : Expression} {x : Number} (ha : Formed a) (h : a.addNumber x = .ok e) : Formed e
  | subNumber {a e : Expression} {x : Number} (ha : Formed a) (h : a.subNumber x = .ok e) : Formed e
  | scale {a e : Expression} {x : Number} (ha : Formed a) (h : a.scale x = .ok e) : Formed e
  | divide {a e : Expression} {x : Number} (ha : Formed a) (h : a.divide x = .ok e) : Formed e
  | negate {a e : Expression} (ha : Formed a) (h : a.negate = .ok e) : Formed e
  /-- A copy, and the expression of a constraint, whose constant moved into the bounds. -/
  | clean {a : Expression} (ha : Formed a) (constant : Float) :
    Formed (Expression.clean ⟨a.factors, constant⟩)

/-! ### Operations keep powers apart -/

theorem accumulate_distinct {xs ys : List (Power × Number)} {p : Power} {x : Float}
    (h : Keyed.Distinct xs) (ha : accumulate xs p x = .ok ys) : Keyed.Distinct ys := by
  unfold accumulate at ha
  split at ha
  · obtain ⟨old, -, ha⟩ := bind_eq_ok.1 ha
    cases ha
    exact h.put _ _
  · cases ha
    exact h.put _ _

/-- Steps that keep powers apart do so together. -/
theorem foldlM_distinct {α : Type}
    {f : List (Power × Number) → α → Except Fault (List (Power × Number))}
    (hf : ∀ xs a ys, Keyed.Distinct xs → f xs a = .ok ys → Keyed.Distinct ys) {as : List α}
    {xs ys : List (Power × Number)} (h : Keyed.Distinct xs) (ha : as.foldlM f xs = .ok ys) :
    Keyed.Distinct ys := by
  induction as generalizing xs with
  | nil =>
    cases ha
    exact h
  | cons a as ih =>
    obtain ⟨zs, hz, ha⟩ := bind_eq_ok.1 ha
    exact ih (hf xs a zs h hz) ha

theorem mergeFactors_distinct {sign : Float} {xs ys zs : List (Power × Number)}
    (hxs : Keyed.Distinct xs) (h : mergeFactors sign xs ys = .ok zs) : Keyed.Distinct zs := by
  refine foldlM_distinct ?_ hxs h
  rintro xs ⟨p, y⟩ ys hxs hstep
  obtain ⟨x, -, hstep⟩ := bind_eq_ok.1 hstep
  exact accumulate_distinct hxs hstep

theorem combine_distinct {sign : Float} {a b e : Expression} (ha : a.Distinct)
    (h : combine sign a b = .ok e) : e.Distinct := by
  obtain ⟨factors, hfactors, h⟩ := bind_eq_ok.1 h
  cases h
  exact (mergeFactors_distinct ha hfactors).filter _

theorem shift_distinct {sign : Float} {a e : Expression} {x : Number} (ha : a.Distinct)
    (h : shift sign a x = .ok e) : e.Distinct := by
  obtain ⟨y, -, h⟩ := bind_eq_ok.1 h
  cases h
  exact ha

theorem keys_of_scaled {s : Float} {xs ys : List (Power × Number)}
    (h : (xs.mapM fun (p, x) => do pure (p, .real ((← x.toFloat) * s)) : Except Fault _) = .ok ys) :
    ys.map Prod.fst = xs.map Prod.fst := by
  induction xs generalizing ys with
  | nil =>
    cases h
    rfl
  | cons x xs ih =>
    rw [List.mapM_cons] at h
    obtain ⟨y, hy, h⟩ := bind_eq_ok.1 h
    obtain ⟨ys, hys, h⟩ := bind_eq_ok.1 h
    obtain ⟨z, -, hy⟩ := bind_eq_ok.1 hy
    cases h
    cases hy
    rw [List.map_cons, List.map_cons, ih hys]

theorem scaleFloat_distinct {a e : Expression} {s : Float} (ha : a.Distinct)
    (h : scaleFloat a s = .ok e) : e.Distinct := by
  obtain ⟨factors, hfactors, h⟩ := bind_eq_ok.1 h
  cases h
  have hkeys : Keyed.Distinct factors := by
    unfold Keyed.Distinct
    rw [keys_of_scaled hfactors]
    exact ha
  exact hkeys.filter _

/-- **A power occurs once in every expression that operations make.** -/
theorem Formed.distinct {e : Expression} (h : Formed e) : e.Distinct := by
  induction h with
  | ofVariable v => exact List.pairwise_singleton _ _
  | ofFloat x => exact List.Pairwise.nil
  | ofFactors entries constant => exact (Keyed.distinct_ofEntries entries).filter _
  | ofTerms h =>
    obtain ⟨start, hstart, h⟩ := bind_eq_ok.1 h
    obtain ⟨factors, hfactors, h⟩ := bind_eq_ok.1 h
    obtain ⟨x, -, hstart⟩ := bind_eq_ok.1 hstart
    cases hstart
    cases h
    refine (foldlM_distinct ?_ (show Keyed.Distinct [] from List.Pairwise.nil) hfactors).filter _
    rintro xs ⟨v, y⟩ ys hxs hstep
    obtain ⟨z, -, hstep⟩ := bind_eq_ok.1 hstep
    exact accumulate_distinct hxs hstep
  | power h =>
    unfold Expression.power at h
    split at h
    · split at h
      · split_ifs at h
        cases h
        exact List.pairwise_singleton _ _
      · cases h
    · cases h
  | add _ _ h iha _ => exact combine_distinct iha h
  | sub _ _ h iha _ => exact combine_distinct iha h
  | addNumber _ h ih => exact shift_distinct ih h
  | subNumber _ h ih => exact shift_distinct ih h
  | scale _ h ih =>
    obtain ⟨y, -, h⟩ := bind_eq_ok.1 h
    exact scaleFloat_distinct ih h
  | divide _ h ih =>
    obtain ⟨y, -, h⟩ := bind_eq_ok.1 h
    split_ifs at h
    · cases h
    · exact scaleFloat_distinct ih h
  | negate _ h ih => exact scaleFloat_distinct ih h
  | clean _ constant ih => exact Keyed.Distinct.filter ih _

/-! ### Linear expressions -/

/-- A float beside an integer is equal when its value is. -/
theorem compareFloatInt_eq {x : Float} {n : Int} :
    Number.compareFloatInt x n = some .eq ↔ exactValue? x = some (n : ℚ) := by
  unfold Number.compareFloatInt exactValue?
  cases Decimal.parts x with
  | notANumber => simp
  | infinite negative => cases negative <;> simp
  | finite negative m e =>
    simp only [Option.some.injEq]
    split_ifs with h1 h2
    · simp [h1.ne]
    · simp [h2.ne']
    · simp [le_antisymm (not_lt.1 h2) (not_lt.1 h1)]

/-- A scalar that is equal to one is a float at one or an integer that is one. -/
theorem same_one {x : Scalar} (h : x.same (.number .one) = true) :
    (∃ y, x = .real y ∧ place? y = some (.ofRat 1)) ∨
      ∃ y : Number, x = .number y ∧ y.whole? = some 1 := by
  cases x with
  | nothing => cases h
  | text s => cases h
  | number y =>
    cases y with
    | real y =>
      have hy : Number.compareFloatInt y 1 = some .eq := by
        simpa [Scalar.same, Number.same, Number.one, Number.whole?] using h
      refine .inl ⟨y, rfl, exactValue?_eq_some_iff.1 ?_⟩
      simpa using compareFloatInt_eq.1 hy
    | truth b => exact .inr ⟨_, rfl, beq_iff_eq.1 h⟩
    | integer n => exact .inr ⟨_, rfl, beq_iff_eq.1 h⟩

theorem same_of_same_one {x y : Scalar} (hx : x.same (.number .one) = true)
    (hy : y.same (.number .one) = true) : x.same y = true := by
  have hreal : ∀ {a : Float}, place? a = some (.ofRat 1) → Number.compareFloatInt a 1 = some .eq :=
    fun h => compareFloatInt_eq.2 (by simpa using exactValue?_eq_some_iff.2 h)
  rcases same_one hx with ⟨a, rfl, ha⟩ | ⟨a, rfl, ha⟩ <;>
    rcases same_one hy with ⟨b, rfl, hb⟩ | ⟨b, rfl, hb⟩
  · exact beq_iff.2 ⟨_, ha, hb⟩
  · cases b with
    | real b => cases hb
    | _ => simp [Scalar.same, Number.same, hb, hreal ha]
  · cases a with
    | real a => cases ha
    | _ => simp [Scalar.same, Number.same, ha, hreal hb]
  · cases a with
    | real a => cases ha
    | _ =>
      cases b with
      | real b => cases hb
      | _ => simp [Scalar.same, Number.same, ha, hb]

/-- **The variables of a linear expression differ from each other.** -/
theorem nodup_vars {e : Expression} (hd : e.Distinct) (hl : e.isLinear = true) :
    (e.factors.map fun term => term.1.var).Nodup := by
  unfold isLinear at hl
  unfold Distinct Keyed.Distinct at hd
  rw [List.pairwise_map] at hd
  rw [List.Nodup, List.pairwise_map]
  refine hd.imp_of_mem fun {earlier later} hearlier hlater hne hvar => ?_
  have hsame : (later.1.exponent.same earlier.1.exponent) = true :=
    same_of_same_one (List.all_eq_true.1 hl later hlater) (List.all_eq_true.1 hl earlier hearlier)
  have heq : (later.1 == earlier.1) = true := by
    show (later.1.var == earlier.1.var && later.1.exponent.same earlier.1.exponent) = true
    rw [hsame, hvar, beq_self_eq_true]
    rfl
  rw [heq] at hne
  cases hne

end Expression

end Optimization
