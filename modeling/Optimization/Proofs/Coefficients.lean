import Optimization.Proofs.Feasibility
import Optimization.Proofs.Magnitudes

/-!
# Coefficients of linear expressions

A linear expression without repeated variables is known by its constant and by the coefficients of
its variables, in whatever order its terms stand.

* `coefficient_of_mem`, `coefficient_of_notMem` : the coefficient of a variable is the factor of its
  term, or zero;
* `Formed.significant` : operations on expressions leave no factor that counts as zero;
* `ofTerms_eq` : terms of different variables keep their factors, except those that count as zero;
* `IsSum` : an expression that is a sum over given variables with given coefficients.
-/

namespace Optimization

/-- The value of a key that occurs once is found. -/
theorem Keyed.lookup_of_mem {κ ν : Type} [BEq κ] [LawfulBEq κ] {xs : List (κ × ν)}
    (hnodup : (xs.map Prod.fst).Nodup) {k : κ} {v : ν} (h : (k, v) ∈ xs) :
    xs.lookup k = some v := by
  induction xs with
  | nil => cases h
  | cons x rest ih =>
    obtain ⟨k', v'⟩ := x
    rw [List.map_cons, List.nodup_cons] at hnodup
    rcases List.mem_cons.1 h with h | h
    · cases h
      simp
    · have hk : k ∈ rest.map Prod.fst := List.mem_map_of_mem h
      have hne : (k == k') = false := by
        rw [beq_eq_false_iff_ne]
        rintro rfl
        exact hnodup.1 hk
      simp only [List.lookup_cons, hne]
      exact ih hnodup.2 h

/-- A key that does not occur has no value. -/
theorem Keyed.lookup_eq_none {κ ν : Type} [BEq κ] [LawfulBEq κ] {xs : List (κ × ν)} {k : κ}
    (h : k ∉ xs.map Prod.fst) : xs.lookup k = none := by
  rw [← Keyed.isSome_lookup] at h
  exact Option.not_isSome_iff_eq_none.1 h

namespace Expression

variable {e : Expression} {v : Variable}

/-! ### Coefficients -/

/-- Among linear powers a first power is found by its variable. -/
theorem lookup_first {factors : List (Power × Number)}
    (hl : factors.all (·.1.isLinear) = true) (v : Variable) :
    factors.lookup (.first v) = (factors.map fun t => (t.1.var, t.2)).lookup v := by
  induction factors with
  | nil => rfl
  | cons t factors ih =>
    obtain ⟨p, x⟩ := t
    simp only [List.all_cons, Bool.and_eq_true] at hl
    have hexponent : (Scalar.number .one).same p.exponent = true :=
      same_of_same_one (by decide) hl.1
    have hbeq : (Power.first v == p) = (v == p.var) := by
      show (v == p.var && (Scalar.number .one).same p.exponent) = _
      rw [hexponent, Bool.and_true]
    simp only [List.map_cons, List.lookup_cons, hbeq, ih hl.2]

/-- The coefficient of a variable that occurs once is the factor of its term. -/
theorem coefficient_of_mem (hl : e.isLinear = true)
    (hnodup : (e.factors.map (·.1.var)).Nodup) {t : Power × Number} (ht : t ∈ e.factors) :
    e.coefficient t.1.var = t.2 := by
  have hkeys : ((e.factors.map fun t => (t.1.var, t.2)).map Prod.fst).Nodup := by
    rw [List.map_map]
    exact hnodup
  rw [coefficient, lookup_first hl, Keyed.lookup_of_mem hkeys (List.mem_map_of_mem ht)]
  rfl

/-- A variable that does not occur has the coefficient zero. -/
theorem coefficient_of_notMem (hl : e.isLinear = true) (hv : v ∉ e.factors.map (·.1.var)) :
    e.coefficient v = .real 0.0 := by
  rw [coefficient, lookup_first hl, Keyed.lookup_eq_none]
  · rfl
  · rw [List.map_map]
    exact hv

/-! ### Factors that count -/

/-- No factor counts as zero. -/
def Significant (e : Expression) : Prop := ∀ t ∈ e.factors, t.2.isSignificant = true

theorem significant_clean (e : Expression) : e.clean.Significant :=
  fun _ ht => (List.mem_filter.1 ht).2

theorem clean_of_significant (h : e.Significant) : e.clean = e := by
  obtain ⟨factors, constant⟩ := e
  simpa [clean, Significant] using h

theorem significant_scaleFloat {a : Expression} {s : Float} (h : scaleFloat a s = .ok e) :
    e.Significant := by
  obtain ⟨factors, -, h⟩ := bind_eq_ok.1 h
  cases h
  exact significant_clean _

theorem significant_combine {a b : Expression} {sign : Float} (h : combine sign a b = .ok e) :
    e.Significant := by
  obtain ⟨factors, -, h⟩ := bind_eq_ok.1 h
  cases h
  exact significant_clean _

theorem significant_shift {a : Expression} {sign : Float} {x : Number} (ha : a.Significant)
    (h : shift sign a x = .ok e) : e.Significant := by
  obtain ⟨y, -, h⟩ := bind_eq_ok.1 h
  cases h
  exact ha

/-- A single first power with the factor one counts. -/
theorem significant_single (p : Power) (c : Float) :
    Significant ⟨[(p, .real 1.0)], c⟩ := by
  intro t ht
  obtain rfl := List.mem_singleton.1 ht
  show (Number.real 1.0).isSignificant = true
  decide

/-- **No factor counts as zero in an expression that operations make.** -/
theorem Formed.significant (h : Formed e) : e.Significant := by
  induction h with
  | ofVariable v => exact significant_single _ _
  | ofFloat x => exact fun t ht => absurd ht List.not_mem_nil
  | ofFactors entries constant => exact significant_clean _
  | ofTerms h =>
    obtain ⟨start, -, h⟩ := bind_eq_ok.1 h
    obtain ⟨factors, -, h⟩ := bind_eq_ok.1 h
    cases h
    exact significant_clean _
  | power h =>
    unfold Expression.power at h
    split at h
    · split at h
      · split_ifs at h
        cases h
        exact significant_single _ _
      · cases h
    · cases h
  | add _ _ h _ _ => exact significant_combine h
  | sub _ _ h _ _ => exact significant_combine h
  | addNumber _ h ih => exact significant_shift ih h
  | subNumber _ h ih => exact significant_shift ih h
  | scale _ h _ =>
    obtain ⟨y, -, h⟩ := bind_eq_ok.1 h
    exact significant_scaleFloat h
  | divide _ h _ =>
    obtain ⟨y, -, h⟩ := bind_eq_ok.1 h
    split_ifs at h
    · cases h
    · exact significant_scaleFloat h
  | negate _ h _ => exact significant_scaleFloat h
  | clean _ constant _ => exact significant_clean _

/-! ### Sums of given terms -/

/-- What is left of a float as a factor: the float, or zero if it counts as zero. -/
def kept (x : Float) : Float := if (Number.real x).isSignificant then x else 0.0

theorem kept_of_significant {x : Float} (h : (Number.real x).isSignificant = true) : kept x = x :=
  if_pos h

@[simp] theorem kept_zero : kept 0.0 = 0.0 := ite_self _

/-- The expression of the first powers of variables, without the factors that count as zero. -/
def ofPairs (pairs : List (Variable × Float)) (c : Float) : Expression :=
  ⟨(pairs.filter fun pair => (Number.real pair.2).isSignificant).map fun pair =>
    (.first pair.1, .real pair.2), c⟩

/-- Floats added to zero, one for each variable, before zeros are left out. -/
def startedAtZero (pairs : List (Variable × Float)) : List (Power × Number) :=
  pairs.map fun pair => (.first pair.1, .real (0.0 + pair.2))

theorem lookup_startedAtZero {pairs : List (Variable × Float)} (hv : v ∉ pairs.map Prod.fst) :
    (startedAtZero pairs).lookup (.first v) = none := by
  rw [List.lookup_eq_none_iff]
  intro entry hentry
  obtain ⟨pair, hpair, rfl⟩ := List.mem_map.1 hentry
  have hne : (v == pair.1) = false := by
    rw [beq_eq_false_iff_ne]
    rintro rfl
    exact hv (List.mem_map_of_mem hpair)
  show (!(v == pair.1 && _)) = true
  rw [hne, Bool.false_and, Bool.not_false]

/-- Terms of new variables go to the end, each with its own factor. -/
theorem accumulateAll_eq (built : List (Variable × Float)) {pairs : List (Variable × Float)}
    (hnodup : ((built ++ pairs).map Prod.fst).Nodup) :
    (pairs.map fun pair => (pair.1, Scalar.real pair.2)).foldlM
        (fun xs (v, x) => do accumulate xs (.first v) (← x.toFloat)) (startedAtZero built) =
      (.ok (startedAtZero (built ++ pairs)) : Except Fault _) := by
  induction pairs generalizing built with
  | nil =>
    rw [List.append_nil]
    rfl
  | cons pair pairs ih =>
    obtain ⟨v, x⟩ := pair
    have hv : v ∉ built.map Prod.fst := by
      intro hmem
      rw [List.map_append, List.map_cons] at hnodup
      exact List.disjoint_of_nodup_append hnodup hmem List.mem_cons_self
    have hstep : accumulate (startedAtZero built) (.first v) x =
        .ok (startedAtZero (built ++ [(v, x)])) := by
      have hnone := lookup_startedAtZero hv
      unfold accumulate
      rw [hnone]
      show Except.ok (Keyed.put (Power.first v) (.real (0.0 + x)) (startedAtZero built)) = _
      rw [Keyed.put_of_lookup_eq_none _ hnone, startedAtZero, startedAtZero, List.map_append]
      rfl
    have happend : built ++ (v, x) :: pairs = (built ++ [(v, x)]) ++ pairs := by simp
    rw [List.map_cons, List.foldlM_cons]
    show (accumulate (startedAtZero built) (.first v) x >>= _) = _
    rw [hstep, happend]
    exact ih _ (happend ▸ hnodup)

/-- A float added to zero counts when the float does, and is the float then. -/
theorem clean_startedAtZero (pairs : List (Variable × Float)) (c : Float) :
    clean ⟨startedAtZero pairs, c⟩ = ofPairs pairs c := by
  unfold clean ofPairs startedAtZero
  congr 1
  induction pairs with
  | nil => rfl
  | cons pair pairs ih =>
    have hcounts := Number.significant_zero_add pair.2
    simp only [List.map_cons, List.filter_cons, hcounts]
    split_ifs with h
    · rw [ih, List.map_cons, Number.zero_add_of_significant h]
    · exact ih

/-- **Terms of different variables keep their factors, except those that count as zero.** -/
theorem ofTerms_eq {pairs : List (Variable × Float)} (hnodup : (pairs.map Prod.fst).Nodup)
    (c : Float) :
    ofTerms (pairs.map fun pair => (pair.1, .real pair.2)) (.real c) = .ok (ofPairs pairs c) := by
  rw [← clean_startedAtZero]
  have haccumulate := accumulateAll_eq [] hnodup
  exact bind_eq_ok.2 ⟨ofFloat c, rfl, bind_eq_ok.2 ⟨_, haccumulate, rfl⟩⟩

/-! ### Sums over variables -/

/-- An expression is the sum over variables, numbered from one, with the given coefficients and
constant. -/
structure IsSum (vs : List Variable) (f : Nat → Float) (c : Float) (e : Expression) : Prop where
  linear : e.isLinear = true
  nodup : (e.factors.map (·.1.var)).Nodup
  vars : ∀ t ∈ e.factors, t.1.var ∈ vs
  coefficient : ∀ k (hk : k < vs.length), e.coefficient vs[k] = .real (f (k + 1))
  constant : e.constant = c

section

variable {vs : List Variable} {pairs : List (Variable × Float)} {f : Nat → Float} {c : Float}

theorem isLinear_ofPairs (pairs : List (Variable × Float)) (c : Float) :
    (ofPairs pairs c).isLinear = true := by
  refine List.all_eq_true.2 fun t ht => ?_
  obtain ⟨pair, -, rfl⟩ := List.mem_map.1 ht
  show (Scalar.number .one).same (.number .one) = true
  decide

theorem vars_ofPairs (pairs : List (Variable × Float)) (c : Float) :
    (ofPairs pairs c).factors.map (·.1.var) =
      (pairs.filter fun pair => (Number.real pair.2).isSignificant).map Prod.fst := by
  rw [ofPairs, List.map_map]
  rfl

theorem vars_ofPairs_sublist (pairs : List (Variable × Float)) (c : Float) :
    List.Sublist ((ofPairs pairs c).factors.map (·.1.var)) (pairs.map Prod.fst) := by
  rw [vars_ofPairs]
  exact List.filter_sublist.map _

/-- A variable with a float keeps it as its coefficient, or zero if the float counts as zero. -/
theorem coefficient_ofPairs (hnodup : (pairs.map Prod.fst).Nodup) {pair : Variable × Float}
    (hpair : pair ∈ pairs) : (ofPairs pairs c).coefficient pair.1 = .real (kept pair.2) := by
  cases hcounts : (Number.real pair.2).isSignificant with
  | true =>
    have hmem : (Power.first pair.1, Number.real pair.2) ∈ (ofPairs pairs c).factors :=
      List.mem_map.2 ⟨pair, List.mem_filter.2 ⟨hpair, hcounts⟩, rfl⟩
    have hvars := (vars_ofPairs_sublist pairs c).nodup hnodup
    rw [kept_of_significant hcounts]
    exact coefficient_of_mem (isLinear_ofPairs pairs c) hvars hmem
  | false =>
    have hnone : pair.1 ∉ (ofPairs pairs c).factors.map (·.1.var) := by
      intro hmem
      rw [vars_ofPairs] at hmem
      obtain ⟨other, hother, he⟩ := List.mem_map.1 hmem
      obtain ⟨hother, hcounts'⟩ := List.mem_filter.1 hother
      obtain rfl : other = pair := List.inj_on_of_nodup_map hnodup hother hpair he
      rw [hcounts] at hcounts'
      cases hcounts'
    rw [coefficient_of_notMem (isLinear_ofPairs pairs c) hnone, kept, hcounts]
    rfl

/-- A variable without a float has the coefficient zero. -/
theorem coefficient_ofPairs_of_notMem (hv : v ∉ pairs.map Prod.fst) :
    (ofPairs pairs c).coefficient v = .real 0.0 :=
  coefficient_of_notMem (isLinear_ofPairs pairs c) fun hmem =>
    hv ((vars_ofPairs_sublist pairs c).subset hmem)

/-- Terms whose variables are among given ones make up a sum over these. -/
theorem isSum_ofPairs (hnodup : (pairs.map Prod.fst).Nodup)
    (hvars : ∀ pair ∈ pairs, pair.1 ∈ vs)
    (hcoefficient : ∀ k (hk : k < vs.length), (vs[k], f (k + 1)) ∈ pairs ∨
      vs[k] ∉ pairs.map Prod.fst ∧ f (k + 1) = 0.0) :
    IsSum vs (fun j => kept (f j)) c (ofPairs pairs c) where
  linear := isLinear_ofPairs pairs c
  nodup := (vars_ofPairs_sublist pairs c).nodup hnodup
  vars t ht := by
    obtain ⟨pair, hpair, rfl⟩ := List.mem_map.1 ht
    exact hvars pair (List.mem_filter.1 hpair).1
  coefficient k hk := by
    rcases hcoefficient k hk with hpair | ⟨hnone, hzero⟩
    · exact coefficient_ofPairs hnodup hpair
    · rw [coefficient_ofPairs_of_notMem hnone, hzero, kept_zero]
  constant := rfl

end

end Expression

end Optimization
