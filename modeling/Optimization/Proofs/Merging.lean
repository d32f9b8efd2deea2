import Optimization.Expression.Arithmetic
import Optimization.Proofs.Coefficients
import Optimization.Proofs.Numbers

/-!
# How sums merge their terms

A sum or difference of two expressions has the powers of the left one in its order, then those that
only the right one has in theirs. A power that both have stands where the left one has it, with
its factors combined.

* `merged` : the terms before those that count as zero are left out;
* `mergeFactors_of_mergeable` : adding terms one by one gives just these;
* `combine_eq_ok_iff` : the sum or difference of two expressions.

A sum is refused only when a factor that takes part in it is an integer beyond the floats.
-/

namespace Optimization

/-! ### Lists of keyed entries -/

namespace Keyed

variable {κ ν : Type} [BEq κ] {k j : κ} {v : ν} {xs : List (κ × ν)} {x : κ × ν}

theorem Distinct.tail (h : Distinct (x :: xs)) : Distinct xs := List.Pairwise.of_cons h

/-- A later key differs from the first one. -/
theorem Distinct.later_ne (h : Distinct (x :: xs)) {y : κ × ν} (hy : y ∈ xs) :
    (y.1 == x.1) = false :=
  List.rel_of_pairwise_cons h (List.mem_map_of_mem hy)

variable [PartialEquivBEq κ]

theorem beq_eq_false_comm : (k == j) = false ↔ (j == k) = false := by rw [BEq.comm]

/-- The first key does not occur again. -/
theorem Distinct.lookup_head (h : Distinct (x :: xs)) : xs.lookup x.1 = none := by
  rw [List.lookup_eq_none_iff]
  intro y hy
  rw [bne, beq_eq_false_comm.1 (h.later_ne hy)]
  rfl

/-- Equal keys are found alike. -/
theorem lookup_congr (h : (k == j) = true) (xs : List (κ × ν)) : xs.lookup k = xs.lookup j := by
  induction xs with
  | nil => rfl
  | cons x xs ih => rw [List.lookup_cons, List.lookup_cons, BEq.congr_left h, ih]

/-- A key that occurs once is found with its value. -/
theorem Distinct.lookup_of_mem (h : Distinct xs) (hx : x ∈ xs) (hk : (k == x.1) = true) :
    xs.lookup k = some x.2 := by
  induction xs with
  | nil => cases hx
  | cons y xs ih =>
    rw [List.lookup_cons]
    rcases List.mem_cons.1 hx with rfl | hx
    · rw [hk]
    · have hne : (k == y.1) = false := by
        rw [BEq.congr_left hk]
        exact h.later_ne hx
      rw [hne]
      exact ih h.tail hx

/-- A value for a key changes nothing for other keys. -/
theorem lookup_put_of_beq_eq_false (h : (j == k) = false) (v : ν) (xs : List (κ × ν)) :
    (put k v xs).lookup j = xs.lookup j := by
  induction xs with
  | nil => rw [put_nil, List.lookup_cons, h]
  | cons x xs ih =>
    cases hk : k == x.1 with
    | true =>
      have hj : (j == x.1) = false := by rw [← BEq.congr_right hk, h]
      rw [put, if_pos hk, List.lookup_cons, List.lookup_cons, hj]
    | false =>
      rw [put, if_neg (Bool.eq_false_iff.1 hk), List.lookup_cons, List.lookup_cons, ih]

/-- A key that is equal to the one just given has its value. -/
theorem lookup_put_of_beq (h : (j == k) = true) (v : ν) (xs : List (κ × ν)) :
    (put k v xs).lookup j = some v := by
  induction xs with
  | nil => rw [put_nil, List.lookup_cons, h]
  | cons x xs ih =>
    have hj : (j == x.1) = (k == x.1) := BEq.congr_left h
    cases hk : k == x.1 with
    | true => rw [put, if_pos hk, List.lookup_cons, hj, hk]
    | false => rw [put, if_neg (Bool.eq_false_iff.1 hk), List.lookup_cons, hj, hk, ih]

/-- Among different keys, one that is there gets its value in its place. -/
theorem put_eq_map (hd : Distinct xs) (h : (xs.lookup k).isSome = true) (v : ν) :
    put k v xs = xs.map fun x => (x.1, if k == x.1 then v else x.2) := by
  induction xs with
  | nil => cases h
  | cons x xs ih =>
    rw [List.map_cons]
    cases hk : k == x.1 with
    | true =>
      -- the other keys differ from this one
      have hrest : xs.map (fun y => (y.1, if k == y.1 then v else y.2)) = xs := by
        refine (List.map_congr_left fun y hy => ?_).trans (List.map_id xs)
        rw [BEq.congr_left hk, beq_eq_false_comm.1 (hd.later_ne hy), if_neg Bool.false_ne_true]
        rfl
      rw [put, if_pos hk, if_pos rfl, hrest]
    | false =>
      rw [List.lookup_cons, hk] at h
      rw [put, if_neg (Bool.eq_false_iff.1 hk), if_neg Bool.false_ne_true, ih hd.tail h]

end Keyed

namespace Expression
open Keyed (put put_eq_map)

/-! ### Merged terms -/

/-- The factor of a power after a multiple of another factor is added; without a factor it starts
at zero. -/
def mergedFactor (sign : Float) (x? : Option Number) (y : Number) : Number :=
  .real (x?.elim 0.0 Number.nearest + sign * y.nearest)

/-- The powers of the left terms with merged factors, then those that only the right terms have. -/
def merged (sign : Float) (xs ys : List (Power × Number)) : List (Power × Number) :=
  (xs.map fun t => (t.1, (ys.lookup t.1).elim t.2 (mergedFactor sign (some t.2)))) ++
    (ys.filter fun t => (xs.lookup t.1).isNone).map fun t => (t.1, mergedFactor sign none t.2)

/-- The factors that take part in merging are no integers beyond the floats. -/
def Mergeable (xs ys : List (Power × Number)) : Prop :=
  ∀ t ∈ ys, t.2.Fits ∧ ∀ x ∈ xs.lookup t.1, x.Fits

instance (xs ys : List (Power × Number)) : Decidable (Mergeable xs ys) :=
  inferInstanceAs (Decidable (∀ t ∈ ys, t.2.Fits ∧ ∀ x ∈ xs.lookup t.1, x.Fits))

variable {sign : Float} {xs ys zs : List (Power × Number)} {p : Power} {x y : Number}

theorem merged_nil (sign : Float) (xs : List (Power × Number)) : merged sign xs [] = xs := by
  simp [merged]

/-- One term is merged, in its place or at the end. -/
theorem merge_step (sign : Float) (xs : List (Power × Number)) (p : Power) (y : Number) :
    (do accumulate xs p (sign * (← y.toFloat))) =
      if y.Fits ∧ ∀ x ∈ xs.lookup p, x.Fits then
        .ok (put p (mergedFactor sign (xs.lookup p) y) xs) else .error .tooLarge := by
  by_cases hy : y.Fits
  · rw [Number.toFloat_of_fits hy]
    show accumulate xs p _ = _
    unfold accumulate
    cases hp : xs.lookup p with
    | none =>
      rw [if_pos ⟨hy, nofun⟩]
      rfl
    | some x =>
      show (x.toFloat >>= fun old => .ok (put p (.real (old + sign * y.nearest)) xs)) = _
      by_cases hx : x.Fits
      · rw [if_pos ⟨hy, by simpa using hx⟩, Number.toFloat_of_fits hx]
        rfl
      · rw [if_neg fun h => hx (h.2 x rfl), Number.toFloat_of_not_fits hx]
        rfl
  · rw [Number.toFloat_of_not_fits hy, if_neg fun h => hy h.1]
    rfl

theorem mergeFactors_cons (sign : Float) (xs ys : List (Power × Number)) (p : Power) (y : Number) :
    mergeFactors sign xs ((p, y) :: ys) =
      if y.Fits ∧ ∀ x ∈ xs.lookup p, x.Fits then
        mergeFactors sign (put p (mergedFactor sign (xs.lookup p) y) xs) ys
      else .error .tooLarge := by
  rw [mergeFactors, List.foldlM_cons]
  show ((do accumulate xs p (sign * (← y.toFloat))) >>= fun xs => mergeFactors sign xs ys) = _
  rw [merge_step]
  split_ifs <;> rfl

/-- What is still to be merged after one term. -/
theorem merged_put (hxs : Keyed.Distinct xs) (hys : Keyed.Distinct ((p, y) :: ys)) :
    merged sign (put p (mergedFactor sign (xs.lookup p) y) xs) ys =
      merged sign xs ((p, y) :: ys) := by
  have hlater : ∀ t ∈ ys, (t.1 == p) = false := fun t ht => hys.later_ne ht
  have hhead : ys.lookup p = none := hys.lookup_head
  -- the terms after this one are found, or not found, as before
  have hfresh : (ys.filter fun t =>
      ((put p (mergedFactor sign (xs.lookup p) y) xs).lookup t.1).isNone) =
        ys.filter fun t => (xs.lookup t.1).isNone := by
    refine List.filter_congr fun t ht => ?_
    rw [Keyed.lookup_put_of_beq_eq_false (hlater t ht)]
  unfold merged
  rw [hfresh, List.filter_cons]
  cases hp : xs.lookup p with
  | none =>
    have hsame : ∀ t ∈ xs, ((p, y) :: ys).lookup t.1 = ys.lookup t.1 := by
      intro t ht
      have hne : (p == t.1) = false := by simpa [bne] using List.lookup_eq_none_iff.1 hp t ht
      rw [List.lookup_cons, Keyed.beq_eq_false_comm.1 hne]
    rw [Keyed.put_of_lookup_eq_none _ hp, List.map_append, Option.isNone_none, if_pos rfl,
      List.map_cons, List.append_assoc]
    congr 1
    · refine List.map_congr_left fun t ht => ?_
      rw [hsame t ht]
    · rw [List.map_cons, hhead]
      rfl
  | some x =>
    rw [put_eq_map hxs (by rw [hp]; rfl), Option.isNone_some, if_neg Bool.false_ne_true,
      List.map_map]
    congr 1
    refine List.map_congr_left fun t ht => ?_
    rw [Function.comp_apply]
    cases hpt : p == t.1 with
    | true =>
      obtain rfl : t.2 = x := by
        rw [hxs.lookup_of_mem ht hpt] at hp
        exact Option.some.inj hp
      have hself : ((p, y) :: ys).lookup t.1 = some y := by
        rw [List.lookup_cons, BEq.comm, hpt]
      rw [← Keyed.lookup_congr hpt, hhead, hself]
      rfl
    | false =>
      rw [List.lookup_cons, Keyed.beq_eq_false_comm.1 hpt]
      rfl

/-- The powers in their order: those on the left, then those that are on the right only. -/
theorem keys_merged (sign : Float) (xs ys : List (Power × Number)) :
    (merged sign xs ys).map Prod.fst =
      xs.map Prod.fst ++ (ys.map Prod.fst).filter fun p => (xs.lookup p).isNone := by
  rw [merged, List.map_append, List.map_map, List.map_map, List.filter_map]
  rfl

/-- The terms of one variable. -/
def termsOf (v : Variable) (xs : List (Power × Number)) : List (Power × Number) :=
  xs.filter fun t => t.1.var == v

theorem lookup_termsOf (p : Power) (xs : List (Power × Number)) :
    (termsOf p.var xs).lookup p = xs.lookup p := by
  unfold termsOf
  induction xs with
  | nil => rfl
  | cons t xs ih =>
    rw [List.filter_cons, List.lookup_cons]
    cases hp : p == t.1 with
    | true =>
      rw [if_pos (beq_iff_eq.2 (Power.beq_iff.1 hp).1.symm), List.lookup_cons, hp]
    | false =>
      split_ifs
      · rw [List.lookup_cons, hp, ih]
      · exact ih

/-- **Each variable's terms are merged on their own**, whatever the names of the variables are. -/
theorem termsOf_merged (v : Variable) (sign : Float) (xs ys : List (Power × Number)) :
    termsOf v (merged sign xs ys) = merged sign (termsOf v xs) (termsOf v ys) := by
  have hmem : ∀ {zs : List (Power × Number)}, ∀ t ∈ termsOf v zs, t.1.var = v :=
    fun t ht => beq_iff_eq.1 (List.mem_filter.1 ht).2
  unfold merged
  rw [termsOf, List.filter_append, List.filter_map, List.filter_map]
  congr 1
  · refine List.map_congr_left fun t ht => ?_
    rw [← hmem t ht, lookup_termsOf]
  · have hswap : ∀ f : Power × Number → Bool,
        (ys.filter f).filter (fun t => t.1.var == v) = (termsOf v ys).filter f := by
      intro f
      rw [termsOf, List.filter_filter, List.filter_filter]
      simp only [Bool.and_comm]
    refine (congrArg _ (hswap _)).trans ?_
    rw [List.filter_congr fun t ht => ?_]
    rw [← hmem t ht, lookup_termsOf]

theorem mergeable_cons_iff (hys : Keyed.Distinct ((p, y) :: ys)) (z : Number) :
    Mergeable xs ((p, y) :: ys) ↔
      (y.Fits ∧ ∀ x ∈ xs.lookup p, x.Fits) ∧ Mergeable (put p z xs) ys := by
  unfold Mergeable
  rw [List.forall_mem_cons]
  refine and_congr Iff.rfl (forall₂_congr fun t ht => ?_)
  rw [Keyed.lookup_put_of_beq_eq_false (hys.later_ne ht)]

/-- **Adding terms one by one merges them.** -/
theorem mergeFactors_of_mergeable (hxs : Keyed.Distinct xs) (hys : Keyed.Distinct ys)
    (h : Mergeable xs ys) : mergeFactors sign xs ys = .ok (merged sign xs ys) := by
  induction ys generalizing xs with
  | nil =>
    rw [merged_nil]
    rfl
  | cons t ys ih =>
    obtain ⟨p, y⟩ := t
    obtain ⟨hstep, hrest⟩ := (mergeable_cons_iff hys (mergedFactor sign (xs.lookup p) y)).1 h
    rw [mergeFactors_cons, if_pos hstep, ← merged_put hxs hys]
    exact ih (hxs.put _ _) hys.tail hrest

/-- Merging is refused because of an integer beyond the floats only. -/
theorem mergeFactors_of_not_mergeable (hys : Keyed.Distinct ys) (h : ¬Mergeable xs ys) :
    mergeFactors sign xs ys = .error .tooLarge := by
  induction ys generalizing xs with
  | nil => exact absurd (fun t ht => absurd ht List.not_mem_nil) h
  | cons t ys ih =>
    obtain ⟨p, y⟩ := t
    rw [mergeable_cons_iff hys (mergedFactor sign (xs.lookup p) y)] at h
    rw [mergeFactors_cons]
    split_ifs with hstep
    · exact ih hys.tail fun hrest => h ⟨hstep, hrest⟩
    · rfl

/-- **A sum or difference is made from the merged terms that count.** -/
theorem combine_eq_ok_iff {a b e : Expression} (ha : a.Distinct) (hb : b.Distinct) :
    combine sign a b = .ok e ↔ Mergeable a.factors b.factors ∧
      e = clean ⟨merged sign a.factors b.factors, a.constant + sign * b.constant⟩ := by
  unfold combine
  by_cases h : Mergeable a.factors b.factors
  · rw [mergeFactors_of_mergeable ha hb h]
    simp only [h, true_and]
    exact ⟨fun he => (Except.ok.inj he).symm, fun he => he ▸ rfl⟩
  · rw [mergeFactors_of_not_mergeable hb h]
    simp only [h, false_and, iff_false]
    nofun

end Expression

end Optimization
