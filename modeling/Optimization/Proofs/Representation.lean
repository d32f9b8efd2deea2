import Optimization.Proofs.Representing

/-!
# Models have the meaning of the problems that they are made from

A model to which a problem was added has variables, an objective and constraints that stand for it.
The row that is left out allows every value, and a factor that counts as zero is zero in most
problems, so that an empty model gets the meaning of the problem.

* `total_row`, `total_of_isSum` : rows and expressions take the values of their coefficients;
* `Represents.satisfies_iff`, `Represents.worth` : a model that represents a problem means the same;
* `reconstruct_represents` : the whole.
-/

namespace Optimization.Reconstruction
open Decimal (place?)
open Expression (IsSum kept)

section

variable {p : Problem} {m : Model} {vs : List Variable}

/-! ### Meaning -/

/-- A sum over a list whose keys differ is one over all keys, when missing keys count nothing. -/
theorem sum_eq_sum_keys {κ ν : Type} [DecidableEq κ] {xs : List (κ × ν)}
    (hnodup : (xs.map Prod.fst).Nodup) {S : Finset κ} (hsub : ∀ x ∈ xs, x.1 ∈ S) {f : κ × ν → ℚ}
    {g : κ → ℚ} (hf : ∀ x ∈ xs, f x = g x.1) (hg : ∀ k ∈ S, k ∉ xs.map Prod.fst → g k = 0) :
    (xs.map f).sum = ∑ k ∈ S, g k := by
  have hkeys : xs.map f = (xs.map Prod.fst).map g := by
    rw [List.map_map]
    exact List.map_congr_left hf
  rw [hkeys, ← List.sum_toFinset g hnodup]
  refine Finset.sum_subset (fun k hk => ?_) fun k hk hnot => hg k hk ?_
  · obtain ⟨x, hx, rfl⟩ := List.mem_map.1 (List.mem_toFinset.1 hk)
    exact hsub x hx
  · rwa [List.mem_toFinset] at hnot

/-- A row without repeated columns takes the value of all its coefficients. -/
theorem total_row {row : Row} {n : ℕ} (hnodup : (row.entries.map Prod.fst).Nodup)
    (hrange : ∀ entry ∈ row.entries, 1 ≤ entry.1 ∧ entry.1 ≤ n) (x : ℕ → ℚ) :
    row.total x =
      ∑ j ∈ Finset.Icc 1 n, Limits.exact (Problem.coefficientAt row.entries j) * x j := by
  refine sum_eq_sum_keys hnodup (fun entry hentry => Finset.mem_Icc.2 (hrange entry hentry))
    (fun entry hentry => ?_) fun j _ hj => ?_
  · rw [Problem.coefficientAt, Keyed.lookup_of_mem hnodup hentry]
    rfl
  · rw [Problem.coefficientAt, Keyed.lookup_eq_none hj, Option.getD_none, exact_zero, zero_mul]

/-- A sum over variables takes the value of its coefficients. -/
theorem total_of_isSum {e : Expression} {f : ℕ → Float} {c : Float} {a : Variable → ℚ}
    {x : ℕ → ℚ} (h : IsSum vs f c e) (hvs : vs.Nodup)
    (hax : ∀ k (hk : k < vs.length), a vs[k] = x (k + 1)) :
    e.total a = ∑ j ∈ Finset.Icc 1 vs.length, Limits.exact (f j) * x j := by
  have hkeys : ((e.factors.map fun t => (t.1.var, t.2)).map Prod.fst).Nodup := by
    rw [List.map_map]
    exact h.nodup
  have hvars : e.total a = ∑ v ∈ vs.toFinset, (e.coefficient v).exact * a v := by
    have hsum := sum_eq_sum_keys hkeys (S := vs.toFinset)
      (f := fun t => t.2.exact * a t.1) (g := fun v => (e.coefficient v).exact * a v)
      (fun t ht => by
        obtain ⟨term, hterm, rfl⟩ := List.mem_map.1 ht
        exact List.mem_toFinset.2 (h.vars term hterm))
      (fun t ht => by
        obtain ⟨term, hterm, rfl⟩ := List.mem_map.1 ht
        rw [Expression.coefficient_of_mem h.linear h.nodup hterm])
      fun v _ hv => by
        rw [List.map_map] at hv
        rw [Expression.coefficient_of_notMem h.linear hv]
        show Limits.exact 0.0 * a v = 0
        rw [exact_zero, zero_mul]
    rw [← hsum, List.map_map]
    rfl
  -- the variables in their order are the columns in theirs
  have hlist : vs.map (fun v => (e.coefficient v).exact * a v) =
      (List.range' 1 vs.length).map fun j => Limits.exact (f j) * x j := by
    refine List.ext_getElem (by simp) fun k hk _ => ?_
    rw [List.length_map] at hk
    rw [List.getElem_map, List.getElem_map, List.getElem_range', h.coefficient k hk, hax k hk,
      one_mul, add_comm 1 k]
    rfl
  rw [hvars, List.sum_toFinset _ hvs, hlist, ← List.sum_toFinset _ List.nodup_range',
    List.toFinset_range'_1, add_comm 1 vs.length]
  rfl

/-- The coefficients that are not zero count. -/
structure Counted (p : Problem) : Prop where
  weights : ∀ c ∈ p.columns, Limits.exact c.weight ≠ 0 → (Number.real c.weight).isSignificant = true
  entries : ∀ row ∈ p.rows, ∀ entry ∈ row.entries,
    Limits.exact entry.2 ≠ 0 → (Number.real entry.2).isSignificant = true

theorem exact_kept {c : Float} (h : Limits.exact c ≠ 0 → (Number.real c).isSignificant = true) :
    Limits.exact (kept c) = Limits.exact c := by
  by_cases hc : Limits.exact c = 0
  · unfold kept
    split_ifs
    · rfl
    · rw [hc, exact_zero]
  · rw [Expression.kept_of_significant (h hc)]

/-- A constraint that stands for a row allows the same values. -/
theorem IsConstraint.within_iff {row : Row} {n : ℕ} {c : Constraint} {a : Variable → ℚ}
    {x : ℕ → ℚ} (h : IsConstraint vs row n c) (hvs : vs.Nodup)
    (hnodup : (row.entries.map Prod.fst).Nodup)
    (hrange : ∀ entry ∈ row.entries, 1 ≤ entry.1 ∧ entry.1 ≤ vs.length)
    (hcounts : ∀ entry ∈ row.entries,
      Limits.exact entry.2 ≠ 0 → (Number.real entry.2).isSignificant = true)
    (hax : ∀ k (hk : k < vs.length), a vs[k] = x (k + 1)) :
    Within c.lower c.upper (c.expression.total a) ↔
      Within row.span.bounds.1 row.span.bounds.2 (row.total x) := by
  have htotal : c.expression.total a = row.total x := by
    rw [total_of_isSum h.expression hvs hax, total_row hnodup hrange]
    refine Finset.sum_congr rfl fun j _ => ?_
    congr 1
    refine exact_kept fun hj => ?_
    unfold Problem.coefficientAt at hj ⊢
    cases hlookup : row.entries.lookup j with
    | none =>
      rw [hlookup] at hj
      exact absurd exact_zero hj
    | some y =>
      rw [hlookup] at hj
      rw [List.lookup_eq_findSome?] at hlookup
      obtain ⟨entry, hentry, hy⟩ := List.exists_of_findSome?_eq_some hlookup
      obtain ⟨-, ⟨⟩⟩ := Option.ite_none_right_eq_some.1 hy
      exact hcounts entry hentry hj
  rw [htotal, ← h.bounds]

/-- A free row allows every value. -/
theorem within_of_free {row : Row} (h : row.span.type = .free) (q : ℚ) :
    Within row.span.bounds.1 row.span.bounds.2 q := by
  unfold Span.bounds
  rw [h]
  exact ⟨⊥, ⊤, Decimal.place?_negativeInfinity, Decimal.place?_infinity, bot_le, le_top⟩

/-- What holds of all items that a test picks out holds of all items when it holds of all but the
first of these. -/
theorem forall_mem_eraseP {α : Type} {P : α → Prop} {q : α → Bool} {xs : List α}
    (hq : ∀ x ∈ xs, q x = true → P x) : (∀ x ∈ xs.eraseP q, P x) ↔ ∀ x ∈ xs, P x := by
  refine ⟨fun h x hx => ?_, fun h x hx => h x (List.mem_of_mem_eraseP hx)⟩
  cases hqx : q x with
  | true => exact hq x hx hqx
  | false => exact h x ((List.mem_eraseP_of_neg (by simp [hqx])).2 hx)

theorem forall_iff_of_forall₂ {α β : Type} {R : α → β → Prop} {P : α → Prop} {Q : β → Prop}
    {xs : List α} {ys : List β} (h : List.Forall₂ R xs ys)
    (hR : ∀ x ∈ xs, ∀ y, R x y → (P x ↔ Q y)) : (∀ x ∈ xs, P x) ↔ ∀ y ∈ ys, Q y := by
  induction h with
  | nil => simp
  | @cons x y xs ys hxy h ih =>
    rw [List.forall_mem_cons, List.forall_mem_cons, hR x List.mem_cons_self y hxy,
      ih fun x hx => hR x (List.mem_cons_of_mem _ hx)]

section

variable {s : Store Interval} {cs : Store Constraint} {n : ℕ} {o : Objective}
  {rs : List (Ref Constraint)} {a : Variable → ℚ} {x : ℕ → ℚ}

theorem row_of_getElem {k : ℕ} (hk : k < p.rows.length) : p.row (k + 1) = p.rows[k] := by
  rw [Problem.row, Problem.itemAt, if_neg (by omega), Nat.add_sub_cancel,
    List.getD_eq_getElem?_getD, List.getElem?_eq_getElem hk]
  rfl

theorem Represents.length (h : Represents p s cs n vs o rs) : vs.length = p.columnCount := by
  rw [← h.decisions.length_eq, List.length_zipIdx]
  rfl

/-- Columns and rows count from one, the lists of a model from zero. -/
theorem feasible_iff : p.Feasible x ↔
    (∀ k < p.columnCount,
      Within (p.column (k + 1)).span.bounds.1 (p.column (k + 1)).span.bounds.2 (x (k + 1))) ∧
    (∀ k < p.columnCount, (p.column (k + 1)).kind ≠ .continuous → ∃ n : ℤ, x (k + 1) = n) ∧
    ∀ row ∈ p.rows, Within row.span.bounds.1 row.span.bounds.2 (row.total x) := by
  constructor
  · intro h
    refine ⟨fun k hk => h.columns (k + 1) (by omega) hk,
      fun k hk => h.integral (k + 1) (by omega) hk, fun row hrow => ?_⟩
    obtain ⟨k, hk, rfl⟩ := List.getElem_of_mem hrow
    rw [← row_of_getElem hk]
    exact h.rows (k + 1) (by omega) hk
  · rintro ⟨hcolumns, hintegral, hrows⟩
    refine ⟨fun j h1 hj => ?_, fun j h1 hj => ?_, fun i h1 hi => ?_⟩
    · obtain ⟨k, rfl⟩ := Nat.exists_eq_add_of_le' h1
      exact hcolumns k hj
    · obtain ⟨k, rfl⟩ := Nat.exists_eq_add_of_le' h1
      exact hintegral k hj
    · obtain ⟨k, rfl⟩ := Nat.exists_eq_add_of_le' h1
      have hk : k < p.rows.length := hi
      rw [row_of_getElem hk]
      exact hrows _ (List.getElem_mem hk)

theorem Represents.isVariable (h : Represents p s cs n vs o rs) {k : ℕ} (hk : k < vs.length) :
    IsVariable s (p.column (k + 1)) (k + 1) vs[k] := by
  have hk' : k < p.columns.length := hk.trans_eq h.length
  have hvariable := h.decisions.get (by simpa using hk') hk
  simp only [List.get_eq_getElem, List.getElem_zipIdx] at hvariable
  rw [column_of_getElem hk', add_comm k 1]
  exact hvariable

/-- A variable that stands for a column may have the values of the column. -/
theorem IsVariable.allows_iff {c : Column} {j : ℕ} {v : Variable} (h : IsVariable s c j v) (q : ℚ) :
    Overrides.Allows [] s v q ↔ Within c.span.bounds.1 c.span.bounds.2 q := by
  show (∃ lower upper, _) ↔ _
  rw [Store.get_of_get? h.bounds]
  constructor
  · rintro ⟨lower, upper, hl, hu, hwithin⟩
    cases hl
    cases hu
    exact hwithin
  · exact fun hwithin => ⟨_, _, rfl, rfl, hwithin⟩

/-- The constraints allow what the rows allow: the row that has none allows everything. -/
theorem Represents.rows_iff (h : Represents p s cs n vs o rs) (hp : p.Proper)
    (hcounted : Counted p) (hax : ∀ k (hk : k < vs.length), a vs[k] = x (k + 1)) :
    (∀ c ∈ rs, Within (cs.get c).lower (cs.get c).upper ((cs.get c).expression.total a)) ↔
      ∀ row ∈ p.rows, Within row.span.bounds.1 row.span.bounds.2 (row.total x) := by
  have hfree : ∀ row ∈ p.rows, decide (row.span.type = .free) = true →
      Within row.span.bounds.1 row.span.bounds.2 (row.total x) := fun row _ hfree =>
    within_of_free (of_decide_eq_true hfree) _
  have hconstraints : ∀ row ∈ (p.rows.eraseP (·.span.type = .free)).zipIdx n, ∀ c,
      IsConstraint vs row.1 row.2 (cs.get c) →
        (Within row.1.span.bounds.1 row.1.span.bounds.2 (row.1.total x) ↔
          Within (cs.get c).lower (cs.get c).upper ((cs.get c).expression.total a)) := by
    intro row hrow c hc
    have hmem := List.mem_of_mem_eraseP (List.fst_mem_of_mem_zipIdx hrow)
    exact (hc.within_iff h.cells.of_map (hp.distinct _ hmem) (h.length ▸ hp.inRange _ hmem)
      (hcounted.entries _ hmem) hax).symm
  rw [← forall_mem_eraseP hfree, ← forall_iff_of_forall₂ h.constraints hconstraints]
  refine ⟨fun hall row hrow => ?_,
    fun hall row hrow => hall row.1 (List.fst_mem_of_mem_zipIdx hrow)⟩
  obtain ⟨k, hk, rfl⟩ := List.getElem_of_mem hrow
  exact hall (_, n + k) (by
    rw [List.mk_mem_zipIdx_iff_le_and_getElem?_sub]
    simp)

/-- **A model that represents a problem allows the values that the problem allows.** -/
theorem Represents.satisfies_iff (h : Represents p s cs n vs o rs) (hp : p.Proper)
    (hcounted : Counted p) (hdecisions : m.decisions = vs) (hconstraints : m.constraints = rs)
    (hax : ∀ k (hk : k < vs.length), a vs[k] = x (k + 1)) :
    m.Satisfies cs s [] a ↔ p.Feasible x := by
  subst hdecisions hconstraints
  rw [feasible_iff, ← h.rows_iff hp hcounted hax, ← h.length]
  constructor
  · intro hs
    refine ⟨fun k hk => ?_, fun k hk hkind => ?_, hs.constraints⟩
    · rw [← hax k hk, ← (h.isVariable hk).allows_iff]
      exact hs.bounds _ (List.getElem_mem hk)
    · rw [← hax k hk]
      exact hs.integral _ (List.getElem_mem hk) ((h.isVariable hk).domain.2 hkind)
  · rintro ⟨hcolumns, hintegral, hrows⟩
    refine ⟨fun v hv => ?_, fun v hv hdomain => ?_, hrows⟩ <;>
      obtain ⟨k, hk, rfl⟩ := List.getElem_of_mem hv
    · rw [(h.isVariable hk).allows_iff, hax k hk]
      exact hcolumns k hk
    · rw [hax k hk]
      exact hintegral k hk ((h.isVariable hk).domain.1 hdomain)

/-- **Its objective values them alike.** -/
theorem Represents.worth (h : Represents p s cs n vs o rs) (hcounted : Counted p)
    (hax : ∀ k (hk : k < vs.length), a vs[k] = x (k + 1)) :
    o.expression.worth? a = p.worth? x := by
  have htotal : o.expression.total a = p.total x := by
    rw [total_of_isSum h.objective.expression h.cells.of_map hax, Problem.total, h.length]
    refine Finset.sum_congr rfl fun j hj => ?_
    congr 1
    refine exact_kept ?_
    obtain ⟨k, rfl⟩ := Nat.exists_eq_add_of_le' (Finset.mem_Icc.1 hj).1
    have hk : k < p.columns.length := (Finset.mem_Icc.1 hj).2
    rw [Problem.weight, if_neg (by omega), column_of_getElem hk]
    exact hcounted.weights _ (List.getElem_mem hk)
  rw [Expression.worth?, Problem.worth?, h.objective.expression.constant, htotal]

end

end

/-! ### Problems of a workspace -/

/-- **A problem is represented by what it adds to a model.** Its column names differ from each other
and from those of the model, and its double-bounded columns have their bounds in order. Then the
call succeeds, and the model gets a variable for each column, one objective, and a constraint for
each row but the first free one; everything else stays. A model that was empty has then the meaning
of the problem, unless a coefficient that is not zero counts as zero. -/
theorem reconstruct_represents {direct : Bool} {w : Workspace} {made : List Variable}
    {r : Ref Model} {cell : Ref Lifetime} {m : Model} {p : Problem}
    (hbuilt : Modeling.Built direct w made) (hm : w.models.get? r = some m)
    (hlive : w.problems.get? cell = some (.live p)) (hproper : p.Proper)
    (hdistinct : (columnNames p).Nodup)
    (hunused : ∀ name ∈ columnNames p, name ∉ m.decisions.map (·.name)) (hordered : Ordered p) :
    ∃ vs o rs intervals constraints journal,
      (reconstruct r cell).run w = (.ok (), { w with
        intervals, constraints, journal, models := w.models.put r (added m vs o rs) }) ∧
      Represents p intervals constraints m.constraints.length vs o rs ∧
      Kept w.intervals intervals ∧ (∀ v ∈ vs, w.intervals.get? v.cell = none) ∧
      Kept w.constraints constraints ∧ (∀ c ∈ rs, w.constraints.get? c = none) ∧
      (m.decisions = [] → m.constraints = [] → m.objectives = [] → Counted p →
        ∀ (a : Variable → ℚ) (x : ℕ → ℚ), (∀ k (hk : k < vs.length), a vs[k] = x (k + 1)) →
          ((added m vs o rs).Satisfies constraints intervals [] a ↔ p.Feasible x) ∧
          ∀ o' ∈ (added m vs o rs).objectives,
            o'.expression.worth? a = p.worth? x ∧ o'.direction.isMaximize = p.maximize) := by
  have hmodel : Modeling.SoundModel direct made m := Store.get_of_get? hm ▸ hbuilt.sound.models r
  obtain ⟨vs, o, rs, intervals, constraints, journal, hrun, hrepresents, hkept, hnew, hkeptRows,
    hnewRows⟩ := addProblem_represents hm (fun _ => hmodel.lookup_index) hproper hordered hdistinct
      hunused
  refine ⟨vs, o, rs, intervals, constraints, journal, ?_, hrepresents, hkept, hnew, hkeptRows,
    hnewRows, fun hdecisions hconstraints hobjectives hcounted a x hax => ⟨?_, ?_⟩⟩
  · rw [reconstruct, Action.run_bind_of_ok _ (Problem.live_run hlive), hrun]
  · refine hrepresents.satisfies_iff hproper hcounted ?_ ?_ hax
    · rw [added, extend, hdecisions, List.nil_append]
    · rw [added, hconstraints, List.nil_append]
  · intro o' ho'
    rw [added, hobjectives, List.nil_append] at ho'
    obtain rfl := List.mem_singleton.1 ho'
    refine ⟨hrepresents.worth hcounted hax, ?_⟩
    rw [hrepresents.objective.direction]
    cases p.maximize <;> rfl

/-- A problem of an integer column and a column without a name, with two rows, the first free. -/
def sampleProblem : Problem where
  maximize := true
  constant := 0.5
  columns := [⟨some "y", .keep .range 0.0 4.0, true, 2.0⟩, ⟨none, .keep .lower 1.0 0.0, false, 1.0⟩]
  rows := [⟨some "free", .unbounded, [(1, 1.0)]⟩,
    ⟨none, .keep .upper 0.0 5.0, [(2, 1.0), (1, 3.0)]⟩]

/-- A workspace with an empty model and a problem. -/
def sampleWorkspace : Workspace :=
  (Modeling.newModel (.empty (.text "m"))).after
    { problems := ({} : Store Lifetime).push (.live sampleProblem) }

theorem sampleWorkspace_built : Modeling.Built false sampleWorkspace [] := by
  refine .step ?_ (.newModel _)
  exact .step .start (.other rfl rfl rfl)

theorem sampleProblem_proper : sampleProblem.Proper where
  named := by simp [sampleProblem]
  fixed := by simp [sampleProblem]
  distinct := by simp [sampleProblem]
  inRange row hrow := by
    rcases List.mem_cons.1 hrow with rfl | hrow
    · simp [sampleProblem, Problem.columnCount]
    · obtain rfl := List.mem_singleton.1 hrow
      simp [sampleProblem, Problem.columnCount]

theorem sampleProblem_counted : Counted sampleProblem where
  weights c hc _ := by
    rcases List.mem_cons.1 hc with rfl | hc
    · decide
    · obtain rfl := List.mem_singleton.1 hc
      decide
  entries row hrow entry hentry _ := by
    rcases List.mem_cons.1 hrow with rfl | hrow
    · obtain rfl := List.mem_singleton.1 hentry
      decide
    · obtain rfl := List.mem_singleton.1 hrow
      rcases List.mem_cons.1 hentry with rfl | hentry
      · decide
      · obtain rfl := List.mem_singleton.1 hentry
        decide

/-- The sample gets into the empty model, with two variables and the constraint of its second
row. -/
theorem sample_represented : ∃ vs o rs w',
    (reconstruct ⟨0⟩ ⟨0⟩).run sampleWorkspace = (.ok (), w') ∧
    w'.models.get? ⟨0⟩ = some (added (.empty (.text "m")) vs o rs) ∧
    Represents sampleProblem w'.intervals w'.constraints 0 vs o rs ∧
    ∀ (a : Variable → ℚ) (x : ℕ → ℚ), (∀ k (hk : k < vs.length), a vs[k] = x (k + 1)) →
      ((added (.empty (.text "m")) vs o rs).Satisfies w'.constraints w'.intervals [] a ↔
        sampleProblem.Feasible x) := by
  have hm : sampleWorkspace.models.get? ⟨0⟩ = some (.empty (.text "m")) := rfl
  have hlive : sampleWorkspace.problems.get? ⟨0⟩ = some (.live sampleProblem) := rfl
  obtain ⟨vs, o, rs, intervals, constraints, journal, hrun, hrepresents, -, -, -, -, hmeaning⟩ :=
    reconstruct_represents sampleWorkspace_built hm hlive sampleProblem_proper
      (by decide) (by simp [Model.empty]) (by
        intro c hc ht
        rcases List.mem_cons.1 hc with rfl | hc
        · show (0.0 : Float) ≤ 4.0
          decide
        · obtain rfl := List.mem_singleton.1 hc
          cases ht)
  refine ⟨vs, o, rs, _, hrun, Store.get?_put_self hm, hrepresents, fun a x hax => ?_⟩
  exact (hmeaning rfl rfl rfl sampleProblem_counted a x hax).1

end Optimization.Reconstruction
