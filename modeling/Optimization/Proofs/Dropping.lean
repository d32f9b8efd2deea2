import Optimization.Proofs.Merging

/-!
# Which terms are left out

Every operation on expressions computes a factor for each of its powers, and then leaves out the
terms whose factors count as zero. A power whose computed factor lies above the limit of `1e-15` in
magnitude keeps its term with just that factor, and one whose factor lies at or below the limit has
no term.

* `Leaves` : what is left of computed terms;
* `scaled`, `summed` : the terms that products, quotients and sums of first powers compute;
* `addFirsts_of_readable` : adding up the factors of first powers gives a sum for each variable;
* `keeps_above_limit` : all operations keep the terms above the limit.

The limit is not zero: `tiny_left_out` is about a product that has lost its only term.
-/

namespace Optimization

/-! ### Lists without repetitions -/

section

variable {α : Type} [DecidableEq α]

/-- A new item comes last. -/
theorem eraseDups_append_singleton (xs : List α) (x : α) :
    (xs ++ [x]).eraseDups = if x ∈ xs then xs.eraseDups else xs.eraseDups ++ [x] := by
  rw [List.eraseDups_append]
  by_cases h : x ∈ xs <;> simp [h, List.removeAll, List.eraseDups_cons]

theorem nodup_eraseDups (xs : List α) : xs.eraseDups.Nodup := by
  induction xs using List.reverseRecOn with
  | nil => exact List.nodup_nil
  | append_singleton xs x ih =>
    rw [eraseDups_append_singleton]
    split_ifs with h
    · exact ih
    · refine ih.append (List.nodup_singleton x) ?_
      rw [List.disjoint_singleton, List.mem_eraseDups]
      exact h

end

/-! ### Limits -/

theorem Number.less_eq_false_of_le {a b : Number} (h : a.holds .le b = true) :
    b.less a = false := by
  rw [Bool.eq_false_iff]
  intro hless
  obtain ⟨q, p, hb, ha, hlt⟩ := Number.less_iff.1 hless
  rcases Bool.or_eq_true_iff.1 h with hle | hle
  · obtain ⟨p', q', ha', hb', hlt'⟩ := Number.less_iff.1 hle
    rw [ha] at ha'
    rw [hb] at hb'
    cases ha'
    cases hb'
    exact lt_asymm hlt hlt'
  · obtain ⟨p', ha', hb'⟩ := Number.same_iff.1 hle
    rw [ha] at ha'
    rw [hb] at hb'
    cases ha'
    cases hb'
    exact lt_irrefl _ hlt

namespace Scalar

/-- A scalar reads as a float. -/
def Readable (x : Scalar) : Prop := ∃ f, x.toFloat = .ok f

/-- The float that a scalar reads as, zero if there is none. -/
def asFloat (x : Scalar) : Float :=
  match x.toFloat with
  | .ok f => f
  | .error _ => 0.0

theorem asFloat_eq {x : Scalar} {f : Float} (h : x.toFloat = .ok f) : x.asFloat = f := by
  rw [asFloat, h]

end Scalar

namespace Expression

/-- What is left of computed terms: those above the limit, each with its factor. -/
structure Leaves (computed : List (Power × Number)) (e : Expression) : Prop where
  kept : ∀ t ∈ computed, t.2.magnitude.holds .gt .limit = true → t ∈ e.factors
  dropped : ∀ t ∈ computed, t.2.magnitude.holds .le .limit = true →
    ∀ u ∈ e.factors, (u.1 == t.1) = false
  sublist : e.factors.Sublist computed

/-- An operation gives what is left of computed terms if it is accepted, and is refused if not. -/
structure Yields (accepted : Prop) (computed : List (Power × Number))
    (x : Except Fault Expression) : Prop where
  result : accepted → ∃ e, x = .ok e ∧ Leaves computed e
  refused : ¬accepted → ∃ fault, x = .error fault

variable {a b e : Expression} {s : Float} {x : Number} {xs ys : List (Power × Number)}

theorem leaves_clean (h : Keyed.Distinct xs) (c : Float) : Leaves xs (clean ⟨xs, c⟩) where
  kept t ht habove := by
    refine List.mem_filter.2 ⟨ht, ?_⟩
    rw [Number.isSignificant_eq]
    exact habove
  dropped t ht hbelow u hu := by
    obtain ⟨hu, hcounts⟩ := List.mem_filter.1 hu
    cases hut : u.1 == t.1 with
    | false => rfl
    | true =>
      -- a power has one computed factor only
      have hself : (u.1 == u.1) = true := PartialEquivBEq.trans hut (BEq.symm hut)
      have hsame := (h.lookup_of_mem hu hself).symm.trans (h.lookup_of_mem ht hut)
      rw [Option.some.inj hsame, Number.isSignificant_eq, Number.less_eq_false_of_le hbelow]
        at hcounts
      cases hcounts
  sublist := List.filter_sublist

/-! ### Sums -/

theorem yields_combine (ha : a.Distinct) (hb : b.Distinct) (sign : Float) :
    Yields (Mergeable a.factors b.factors) (merged sign a.factors b.factors)
      (combine sign a b) where
  result h := by
    refine ⟨_, (combine_eq_ok_iff ha hb).2 ⟨h, rfl⟩, leaves_clean ?_ _⟩
    exact mergeFactors_distinct ha (mergeFactors_of_mergeable ha hb h)
  refused h := ⟨.tooLarge, by rw [combine, mergeFactors_of_not_mergeable hb h]; rfl⟩

/-! ### Products and quotients -/

/-- The terms with each factor multiplied. -/
def scaled (s : Float) (xs : List (Power × Number)) : List (Power × Number) :=
  xs.map fun t => (t.1, .real (t.2.nearest * s))

theorem mapM_scaled (s : Float) (xs : List (Power × Number)) :
    (xs.mapM fun (p, x) => do pure (p, .real ((← x.toFloat) * s)) : Except Fault _) =
      if ∀ t ∈ xs, t.2.Fits then .ok (scaled s xs) else .error .tooLarge := by
  induction xs with
  | nil => rfl
  | cons t xs ih =>
    obtain ⟨p, x⟩ := t
    have hcons : (∀ t ∈ (p, x) :: xs, t.2.Fits) ↔ x.Fits ∧ ∀ t ∈ xs, t.2.Fits :=
      List.forall_mem_cons
    rw [List.mapM_cons, ih]
    by_cases hx : x.Fits
    · simp only [Number.toFloat_of_fits hx, hcons, hx, true_and]
      split_ifs <;> rfl
    · simp only [Number.toFloat_of_not_fits hx, hcons, hx, false_and]
      rfl

theorem distinct_scaled (h : Keyed.Distinct xs) (s : Float) : Keyed.Distinct (scaled s xs) := by
  unfold Keyed.Distinct scaled
  rw [List.map_map]
  exact h

theorem yields_scaleFloat (ha : a.Distinct) (s : Float) :
    Yields (∀ t ∈ a.factors, t.2.Fits) (scaled s a.factors) (scaleFloat a s) where
  result h := by
    refine ⟨clean ⟨scaled s a.factors, a.constant * s⟩, ?_, leaves_clean (distinct_scaled ha s) _⟩
    rw [scaleFloat, mapM_scaled, if_pos h]
    rfl
  refused h := ⟨.tooLarge, by rw [scaleFloat, mapM_scaled, if_neg h]; rfl⟩

theorem yields_scale (ha : a.Distinct) (x : Number) :
    Yields (x.Fits ∧ ∀ t ∈ a.factors, t.2.Fits) (scaled x.nearest a.factors) (a.scale x) where
  result h := by
    rw [scale, Number.toFloat_of_fits h.1]
    exact (yields_scaleFloat ha _).result h.2
  refused h := by
    rw [scale, Number.toFloat_eq]
    split_ifs with hx
    · exact (yields_scaleFloat ha _).refused fun hfactors => h ⟨hx, hfactors⟩
    · exact ⟨_, rfl⟩

theorem yields_divide (ha : a.Distinct) (x : Number) :
    Yields (x.Fits ∧ (x.nearest == 0.0) = false ∧ ∀ t ∈ a.factors, t.2.Fits)
      (scaled (1.0 / x.nearest) a.factors) (a.divide x) where
  result h := by
    rw [divide, Number.toFloat_of_fits h.1]
    simp only [bind, Except.bind, h.2.1]
    exact (yields_scaleFloat ha _).result h.2.2
  refused h := by
    rw [divide, Number.toFloat_eq]
    split_ifs with hx
    · cases hzero : x.nearest == 0.0 with
      | true => exact ⟨_, by simp only [bind, Except.bind, hzero]; rfl⟩
      | false =>
        simp only [bind, Except.bind, hzero]
        exact (yields_scaleFloat ha _).refused fun hfactors => h ⟨hx, hzero, hfactors⟩
    · exact ⟨_, rfl⟩

/-! ### Sums of first powers -/

/-- The sum of the factors of a variable, in their order, from zero on. -/
def factorSum (v : Variable) (pairs : List (Variable × Float)) : Float :=
  ((pairs.filter fun pair => pair.1 == v).map Prod.snd).foldl (· + ·) 0.0

/-- A term for each variable, in the order in which they first occur, with the sum of its
factors. -/
def summed (pairs : List (Variable × Float)) : List (Power × Number) :=
  (pairs.map Prod.fst).eraseDups.map fun v => (.first v, .real (factorSum v pairs))

variable {v w : Variable} {f : Float} {pairs : List (Variable × Float)} {vs : List Variable}

theorem factorSum_append (v w : Variable) (f : Float) (pairs : List (Variable × Float)) :
    factorSum v (pairs ++ [(w, f)]) =
      if w = v then factorSum v pairs + f else factorSum v pairs := by
  unfold factorSum
  rw [List.filter_append, List.map_append, List.foldl_append]
  by_cases h : w = v <;> simp [h]

theorem factorSum_of_notMem (h : v ∉ pairs.map Prod.fst) : factorSum v pairs = 0.0 := by
  have hnone : (pairs.filter fun pair => pair.1 == v) = [] := by
    rw [List.filter_eq_nil_iff]
    intro pair hpair hv
    exact h (beq_iff_eq.1 hv ▸ List.mem_map_of_mem hpair)
  rw [factorSum, hnone]
  rfl

theorem beq_first (v w : Variable) : (Power.first v == Power.first w) = (v == w) := by
  have hone : (Scalar.number .one).same (.number .one) = true := by decide
  show (v == w && (Scalar.number .one).same (.number .one)) = _
  rw [hone, Bool.and_true]

theorem distinct_summed (pairs : List (Variable × Float)) : Keyed.Distinct (summed pairs) := by
  unfold Keyed.Distinct summed
  rw [List.map_map, List.pairwise_map]
  refine (nodup_eraseDups _).imp fun {v w} hne => ?_
  show (Power.first w == Power.first v) = false
  rw [beq_first, beq_eq_false_iff_ne]
  exact hne.symm

theorem lookup_summed (v : Variable) (pairs : List (Variable × Float)) :
    (summed pairs).lookup (.first v) =
      if v ∈ pairs.map Prod.fst then some (.real (factorSum v pairs)) else none := by
  have hself : (Power.first v == Power.first v) = true := by rw [beq_first, beq_self_eq_true]
  split_ifs with h
  · have hmem : (Power.first v, Number.real (factorSum v pairs)) ∈ summed pairs :=
      List.mem_map.2 ⟨v, List.mem_eraseDups.2 h, rfl⟩
    exact (distinct_summed pairs).lookup_of_mem hmem hself
  · rw [List.lookup_eq_none_iff]
    intro t ht
    obtain ⟨w, hw, rfl⟩ := List.mem_map.1 ht
    have hne : v ≠ w := by
      rintro rfl
      exact h (List.mem_eraseDups.1 hw)
    simpa [bne, beq_first] using hne

/-- One more factor is added to the sum of its variable. -/
theorem accumulate_summed (v : Variable) (f : Float) (pairs : List (Variable × Float)) :
    accumulate (summed pairs) (.first v) f = .ok (summed (pairs ++ [(v, f)])) := by
  unfold accumulate
  rw [lookup_summed]
  split_ifs with h
  · -- the variable has a term, whose factor changes in its place
    have hsome : ((summed pairs).lookup (.first v)).isSome = true := by
      rw [lookup_summed, if_pos h]
      rfl
    refine congrArg Except.ok ?_
    rw [Keyed.put_eq_map (distinct_summed pairs) hsome, summed, summed, List.map_append,
      List.map_singleton, eraseDups_append_singleton, if_pos h, List.map_map]
    refine List.map_congr_left fun w _ => ?_
    rw [Function.comp_apply, beq_first, factorSum_append]
    by_cases hvw : v = w
    · subst hvw
      simp
    · simp [hvw]
  · refine congrArg Except.ok ?_
    have hnone : (summed pairs).lookup (.first v) = none := by rw [lookup_summed, if_neg h]
    rw [Keyed.put_of_lookup_eq_none _ hnone, summed, summed, List.map_append,
      List.map_singleton, eraseDups_append_singleton, if_neg h, List.map_append,
      List.map_singleton, factorSum_append, if_pos rfl, factorSum_of_notMem h]
    congr 1
    refine List.map_congr_left fun w hw => ?_
    have hvw : v ≠ w := by
      rintro rfl
      exact h (List.mem_eraseDups.1 hw)
    rw [factorSum_append, if_neg hvw]

/-- Add first powers with the given factors one by one. -/
def addFirsts (xs : List (Power × Number)) (pairs : List (Variable × Scalar)) :
    Except Fault (List (Power × Number)) :=
  pairs.foldlM (fun xs (v, x) => do accumulate xs (.first v) (← x.toFloat)) xs

theorem addFirsts_cons (built : List (Variable × Float)) (v : Variable) (x : Scalar)
    (pairs : List (Variable × Scalar)) :
    addFirsts (summed built) ((v, x) :: pairs) =
      x.toFloat >>= fun f => addFirsts (summed (built ++ [(v, f)])) pairs := by
  rw [addFirsts, List.foldlM_cons]
  simp only []
  cases x.toFloat with
  | error fault => rfl
  | ok f =>
    show accumulate (summed built) (.first v) f >>= _ = _
    rw [accumulate_summed]
    rfl

/-- **Adding first powers one by one gives a sum for each variable.** -/
theorem addFirsts_of_readable (built : List (Variable × Float)) {pairs : List (Variable × Scalar)}
    (h : ∀ pair ∈ pairs, pair.2.Readable) : addFirsts (summed built) pairs =
      .ok (summed (built ++ pairs.map fun pair => (pair.1, pair.2.asFloat))) := by
  induction pairs generalizing built with
  | nil =>
    rw [List.map_nil, List.append_nil]
    rfl
  | cons pair pairs ih =>
    obtain ⟨v, x⟩ := pair
    obtain ⟨⟨f, hf⟩, hrest⟩ := List.forall_mem_cons.1 h
    rw [addFirsts_cons, hf]
    show addFirsts _ pairs = _
    rw [ih _ hrest, List.map_cons, Scalar.asFloat_eq hf, List.append_assoc]
    rfl

theorem addFirsts_of_not_readable (built : List (Variable × Float))
    {pairs : List (Variable × Scalar)} (h : ¬∀ pair ∈ pairs, pair.2.Readable) :
    ∃ fault, addFirsts (summed built) pairs = .error fault := by
  induction pairs generalizing built with
  | nil => exact absurd (fun _ hpair => absurd hpair List.not_mem_nil) h
  | cons pair pairs ih =>
    obtain ⟨v, x⟩ := pair
    rw [addFirsts_cons]
    cases hx : x.toFloat with
    | error fault => exact ⟨fault, rfl⟩
    | ok f => exact ih _ fun hrest => h (List.forall_mem_cons.2 ⟨⟨f, hx⟩, hrest⟩)

theorem yields_ofTerms (pairs : List (Variable × Scalar)) (constant : Scalar) :
    Yields (constant.Readable ∧ ∀ pair ∈ pairs, pair.2.Readable)
      (summed (pairs.map fun pair => (pair.1, pair.2.asFloat))) (ofTerms pairs constant) where
  result := by
    rintro ⟨⟨c, hc⟩, hpairs⟩
    have hadd : addFirsts [] pairs = _ := addFirsts_of_readable [] hpairs
    refine ⟨_, bind_eq_ok.2 ⟨ofFloat c, ?_, bind_eq_ok.2 ⟨_, hadd, rfl⟩⟩,
      leaves_clean (distinct_summed _) _⟩
    rw [ofConstant, hc]
    rfl
  refused h := by
    rw [ofTerms, ofConstant]
    cases hc : constant.toFloat with
    | error fault => exact ⟨fault, rfl⟩
    | ok c =>
      obtain ⟨fault, hfault⟩ := addFirsts_of_not_readable [] fun hpairs => h ⟨⟨c, hc⟩, hpairs⟩
      have hadd : addFirsts [] pairs = .error fault := hfault
      exact ⟨fault, by show addFirsts [] pairs >>= _ = _; rw [hadd]; rfl⟩

/-! ### All operations -/

/-- **All operations keep the terms above the limit**, each with the factor that was computed, and
none of those at or below it. -/
theorem keeps_above_limit :
    (∀ entries c, Leaves (Keyed.ofEntries entries) (ofFactors entries c)) ∧
    (∀ pairs constant, Yields (constant.Readable ∧ ∀ pair ∈ pairs, pair.2.Readable)
      (summed (pairs.map fun pair => (pair.1, pair.2.asFloat))) (ofTerms pairs constant)) ∧
    (∀ a : Expression, a.Formed → ∀ x : Number,
      Yields (x.Fits ∧ ∀ t ∈ a.factors, t.2.Fits) (scaled x.nearest a.factors) (a.scale x) ∧
      Yields (x.Fits ∧ (x.nearest == 0.0) = false ∧ ∀ t ∈ a.factors, t.2.Fits)
        (scaled (1.0 / x.nearest) a.factors) (a.divide x)) ∧
    ∀ a b : Expression, a.Formed → b.Formed →
      Yields (Mergeable a.factors b.factors) (merged 1.0 a.factors b.factors) (a.add b) ∧
      Yields (Mergeable a.factors b.factors) (merged (-1.0) a.factors b.factors) (a.sub b) := by
  refine ⟨fun entries c => leaves_clean (Keyed.distinct_ofEntries entries) c, yields_ofTerms,
    fun a ha x => ⟨yields_scale ha.distinct x, yields_divide ha.distinct x⟩, fun a b ha hb => ?_⟩
  exact ⟨yields_combine ha.distinct hb.distinct _, yields_combine ha.distinct hb.distinct _⟩

/-- A variable. -/
def tinyX : Variable := ⟨⟨0⟩, "x", .continuous⟩

/-- Another variable. -/
def tinyY : Variable := ⟨⟨1⟩, "y", .continuous⟩

/-- The product of `2 x + y` and `1e-15` has lost `y`, whose factor lies at the limit. -/
theorem one_of_two_left : ∃ e, (ofFactors [(.first tinyX, .real 2.0), (.first tinyY, .real 1.0)]
      0.0).scale (.real 1e-15) = .ok e ∧ (.first tinyX, .real (2.0 * 1e-15)) ∈ e.factors ∧
    ∀ u ∈ e.factors, (u.1 == .first tinyY) = false := by
  obtain ⟨-, -, hscale, -⟩ := keeps_above_limit
  have hformed := Formed.ofFactors [(.first tinyX, .real 2.0), (.first tinyY, .real 1.0)] 0.0
  obtain ⟨e, he, hleaves⟩ := (hscale _ hformed (.real 1e-15)).1.result
    ⟨Number.fits_real _, by decide⟩
  refine ⟨e, he, hleaves.kept (.first tinyX, .real (2.0 * 1e-15)) ?_ (by decide), ?_⟩
  · exact List.mem_cons_self
  · exact hleaves.dropped (.first tinyY, .real (1.0 * 1e-15))
      (List.mem_cons_of_mem _ List.mem_cons_self) (by decide)

/-- A product can lose a term although its factor is not zero. -/
theorem tiny_left_out : ¬∀ (a : Expression) (x : Number) (e : Expression), a.Formed →
    a.scale x = .ok e → ∀ t ∈ scaled x.nearest a.factors, t.2.isTrue = true → t ∈ e.factors := by
  intro h
  have hmem := h (ofVariable tinyX) (.real 1e-16) ⟨[], 0.0 * 1e-16⟩ (.ofVariable tinyX) rfl
    (.first tinyX, .real (1.0 * 1e-16)) List.mem_cons_self (by decide)
  cases hmem

end Expression

end Optimization
