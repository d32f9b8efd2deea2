import Optimization.Proofs.Building
import Optimization.Proofs.Edits
import Optimization.Proofs.Feasibility
import Mathlib.Algebra.BigOperators.Intervals

/-!
# Translation keeps the meaning of a model

A problem that a model was translated into, with its matrix loaded, allows the values of columns
that belong to the values of variables that the model allows, and values them alike.

* `row_total`, `objective_worth` : rows and the objective take the values of their expressions;
* `satisfies_iff_feasible` : the whole.
-/

namespace Optimization
open Decimal (place? exactValue?)
open Problem (columnCount_setWeight)
open Translation (IsColumn IsRow IsTerm IsWeight IsTranslation)

/-! ### Terms -/

section

variable {m : Model} {a : Variable → ℚ} {x : ℕ → ℚ}

theorem vector_of_place? {v : Variable} {j : Nat} (h : IndexMap.place? v m.decisions = some j) :
    m.vector a j = a v := by
  rw [Model.vector, (IndexMap.getElem?_of_place? h).2]
  rfl

/-- A term has the value of its float times the value of its column. -/
theorem IsTerm.value {term : Power × Number} {j : Nat} {c : Float}
    (h : IsTerm m.decisions term j c) :
    Limits.exact c * m.vector a j = term.2.exact * a term.1.var := by
  rw [vector_of_place? h.1, Number.exact, h.2]

theorem exact_congr {c d : Float} (h : place? c = place? d) : Limits.exact c = Limits.exact d := by
  rw [Limits.exact, Limits.exact, Decimal.exactValue?_congr h]

theorem exact_zero : Limits.exact 0.0 = 0 := by
  rw [Limits.exact, Decimal.exactValue?_eq_some_iff.2 Decimal.place?_zero]
  rfl

/-! ### Rows -/

/-- Coefficients that are zero are left out of a row, and do not count. -/
theorem total_rowEntries (es : List Entry) (i : Nat) (x : ℕ → ℚ) :
    ((Problem.rowEntries es i).map fun (j, c) => Limits.exact c * x j).sum =
      ((es.filter (·.row == i)).map fun e => Limits.exact e.coefficient * x e.column).sum := by
  unfold Problem.rowEntries
  rw [List.map_reverse, List.sum_reverse, List.map_map]
  induction es with
  | nil => rfl
  | cons e es ih =>
    cases hrow : e.row == i with
    | false => simpa [List.filter_cons, hrow] using ih
    | true =>
      cases hc : e.coefficient != 0.0 with
      | true => simpa [List.filter_cons, hrow, hc] using ih
      | false =>
        -- the entry is left out, and its value is zero
        have hzero : Limits.exact e.coefficient = 0 := by
          rw [exact_congr (place?_eq_of_beq (by simpa [bne] using hc)), exact_zero]
        simpa [List.filter_cons, hrow, hc, hzero] using ih

/-- The entries of the rows from a position on belong to no earlier row. -/
theorem filter_row_eq_nil {α : Type} {xs : List α} {n i : Nat} {built : List (Row × List Entry)}
    (h : List.Forall₂ (fun (r : α × Nat) row => ∀ e ∈ row.2, e.row = r.2) (xs.zipIdx n) built)
    (hi : i < n) : (built.flatMap Prod.snd).filter (·.row == i) = [] := by
  induction xs generalizing n built with
  | nil =>
    cases h
    rfl
  | cons x xs ih =>
    cases h with
    | cons hrow h =>
      rw [List.flatMap_cons, List.filter_append, ih h (by omega), List.append_nil,
        List.filter_eq_nil_iff]
      intro e he
      have := hrow e he
      simp only at this
      simp only [beq_iff_eq]
      omega

/-- The entries of a row are those that were made for it. -/
theorem filter_row {α : Type} {xs : List α} {n k : Nat} {built : List (Row × List Entry)}
    {row : Row × List Entry}
    (h : List.Forall₂ (fun (r : α × Nat) row => ∀ e ∈ row.2, e.row = r.2) (xs.zipIdx n) built)
    (hk : built[k]? = some row) :
    (built.flatMap Prod.snd).filter (·.row == n + k) = row.2 := by
  induction xs generalizing n k built with
  | nil =>
    cases h
    cases hk
  | cons x xs ih =>
    cases h with
    | @cons _ first _ built hrow h =>
      rw [List.flatMap_cons, List.filter_append]
      cases k with
      | zero =>
        obtain rfl : first = row := by simpa using hk
        rw [filter_row_eq_nil h (by omega), List.append_nil, List.filter_eq_self]
        exact fun e he => by simpa using hrow e he
      | succ k =>
        -- the entries of the first row belong to an earlier one
        have hnil : first.2.filter (·.row == n + (k + 1)) = [] := by
          rw [List.filter_eq_nil_iff]
          intro e he
          have := hrow e he
          simp only at this
          simp only [beq_iff_eq]
          omega
        have := ih h hk
        rw [hnil, List.nil_append, ← this]
        congr 2
        funext e
        congr 1
        omega

/-- The entries of a row are those that a translation makes for its constraint. -/
theorem filter_built {cs : Store Constraint} {vs : List Variable} {rs : List (Ref Constraint)}
    {built : List (Row × List Entry)}
    (h : List.Forall₂ (fun r row => IsRow cs vs r.1 r.2 row.1 row.2) (rs.zipIdx 1) built)
    {k : Nat} (hk : k < built.length) :
    (built.flatMap Prod.snd).filter (·.row == 1 + k) = built[k].2 := by
  refine filter_row (h.imp fun r row hrow e he => ?_) (List.getElem?_eq_getElem hk)
  obtain ⟨term, -, hterm⟩ := Translation.exists_left_of_forall₂ hrow.terms he
  exact hterm.1

/-- The entries that were made for the terms of an expression take its value. -/
theorem sum_entries {factors : List (Power × Number)} {es : List Entry} {i : Nat}
    (h : List.Forall₂
      (fun term entry => entry.row = i ∧ IsTerm m.decisions term entry.column entry.coefficient)
      factors es) :
    (es.map fun e => Limits.exact e.coefficient * m.vector a e.column).sum =
      (factors.map fun (p, y) => y.exact * a p.var).sum := by
  induction h with
  | nil => rfl
  | cons hterm _ ih => rw [List.map_cons, List.map_cons, List.sum_cons, List.sum_cons, ih,
      IsTerm.value hterm.2]

/-! ### The objective -/

theorem itemAt_changeAt {α : Type} [Inhabited α] (f : α → α) {xs : List α} {i : Nat} (h : 1 ≤ i)
    (hi : i ≤ xs.length) (j : Nat) :
    Problem.itemAt (Problem.changeAt f xs i) j =
      if j = i then f (Problem.itemAt xs i) else Problem.itemAt xs j := by
  unfold Problem.itemAt Problem.changeAt
  rw [if_neg (by omega : ¬ i = 0), if_neg (by omega : ¬ i = 0)]
  simp only [List.getD_eq_getElem?_getD, List.getElem?_modify]
  by_cases hj : j = i
  · subst hj
    rw [if_neg (by omega), if_pos rfl, List.getElem?_eq_getElem (by omega)]
    simp
  · rw [if_neg hj]
    by_cases hj0 : j = 0
    · rw [if_pos hj0, if_pos hj0]
    · have hne : ¬ i - 1 = j - 1 := by omega
      rw [if_neg hj0, if_neg hj0]
      simp [hne]

variable {p p' : Problem}

theorem weight_setWeight {j : Nat} (h : 1 ≤ j) (hj : j ≤ p.columnCount) (c : Float) (k : Nat) :
    (p.setWeight j c).weight k = if k = j then c else p.weight k := by
  unfold Problem.setWeight Problem.weight Problem.column Problem.changeColumn
  rw [if_neg (by omega : ¬ j = 0), itemAt_changeAt _ h hj]
  by_cases hk : k = j
  · subst hk
    rw [if_neg (by omega), if_pos rfl, if_pos rfl]
  · rw [if_neg hk, if_neg hk]

/-- A first weight for a column adds its value. -/
theorem total_setWeight {j : Nat} (h : 1 ≤ j) (hj : j ≤ p.columnCount) (c : Float)
    (hzero : Limits.exact (p.weight j) = 0) :
    (p.setWeight j c).total x = p.total x + Limits.exact c * x j := by
  unfold Problem.total
  rw [columnCount_setWeight]
  have hterm : ∀ k ∈ Finset.Icc 1 p.columnCount,
      Limits.exact ((p.setWeight j c).weight k) * x k =
        Limits.exact (p.weight k) * x k + if k = j then Limits.exact c * x j else 0 := by
    intro k _
    rw [weight_setWeight h hj]
    by_cases hk : k = j
    · subst hk
      rw [if_pos rfl, if_pos rfl, hzero, zero_mul, zero_add]
    · rw [if_neg hk, if_neg hk, add_zero]
  rw [Finset.sum_congr rfl hterm, Finset.sum_add_distrib, Finset.sum_ite_eq', if_pos]
  exact Finset.mem_Icc.2 ⟨h, hj⟩

/-- First weights for different columns add their values, and leave the constant. -/
theorem total_setWeights {ws : List (Nat × Float)} (hkeys : (ws.map Prod.fst).Nodup)
    (hrange : ∀ w ∈ ws, 1 ≤ w.1 ∧ w.1 ≤ p.columnCount)
    (hzero : ∀ w ∈ ws, Limits.exact (p.weight w.1) = 0) :
    (ws.foldl (fun p (j, c) => p.setWeight j c) p).total x =
      p.total x + (ws.map fun w => Limits.exact w.2 * x w.1).sum := by
  induction ws generalizing p with
  | nil => simp
  | cons w ws ih =>
    obtain ⟨j, c⟩ := w
    obtain ⟨h, hj⟩ := hrange (j, c) List.mem_cons_self
    rw [List.map_cons, List.nodup_cons] at hkeys
    have hrange' : ∀ w ∈ ws, 1 ≤ w.1 ∧ w.1 ≤ (p.setWeight j c).columnCount := fun w hw => by
      rw [columnCount_setWeight]
      exact hrange w (List.mem_cons_of_mem _ hw)
    have hzero' : ∀ w ∈ ws, Limits.exact ((p.setWeight j c).weight w.1) = 0 := fun w hw => by
      have hne : w.1 ≠ j := by
        rintro rfl
        exact hkeys.1 (List.mem_map.2 ⟨w, hw, rfl⟩)
      rw [weight_setWeight h hj, if_neg hne]
      exact hzero w (List.mem_cons_of_mem _ hw)
    rw [List.foldl_cons, ih hkeys.2 hrange' hzero',
      total_setWeight h hj c (hzero (j, c) List.mem_cons_self), List.map_cons, List.sum_cons,
      add_assoc]

/-- Different variables give their weights to different columns. -/
theorem nodup_weights {terms : List (Power × Number)} {ws : List (Nat × Float)}
    (hvars : (terms.map (·.1.var)).Nodup) (h : List.Forall₂ (IsWeight m.decisions) terms ws) :
    (ws.map Prod.fst).Nodup := by
  refine Translation.nodup_map_of_forall₂ h hvars ?_
  rintro term w term' w' ⟨x, ⟨hplace, -⟩, -⟩ ⟨x', ⟨hplace', -⟩, -⟩ he
  exact Translation.place?_injective (he ▸ hplace) hplace'

/-- The weights that terms give to columns take the value of the expression. -/
theorem sum_weights {terms : List (Power × Number)} {ws : List (Nat × Float)}
    (h : List.Forall₂ (IsWeight m.decisions) terms ws) :
    (ws.map fun w => Limits.exact w.2 * m.vector a w.1).sum =
      (terms.map fun (p, y) => y.exact * a p.var).sum := by
  induction h with
  | nil => rfl
  | @cons term w terms ws hw _ ih =>
    obtain ⟨c, hterm, hc⟩ := hw
    rw [List.map_cons, List.map_cons, List.sum_cons, List.sum_cons, ih, hc,
      exact_congr (Decimal.place?_zero_add c), IsTerm.value hterm]

/-- The total depends on the columns only. -/
theorem total_congr (h : p'.columns = p.columns) : p'.total x = p.total x := by
  unfold Problem.total Problem.columnCount
  rw [h]
  refine Finset.sum_congr rfl fun j hj => ?_
  have hj : j ≠ 0 := by
    have := (Finset.mem_Icc.1 hj).1
    omega
  rw [Problem.weight, Problem.weight, if_neg hj, if_neg hj, Problem.column, Problem.column, h]

theorem weight_eq_zero {j : Nat} (hcols : ∀ c ∈ p.columns, c.weight = 0.0) (h : 1 ≤ j)
    (hj : j ≤ p.columnCount) : p.weight j = 0.0 := by
  have hlt : j - 1 < p.columns.length := by
    unfold Problem.columnCount at hj
    omega
  rw [Problem.weight, if_neg (by omega), Problem.column, Problem.itemAt, if_neg (by omega),
    List.getD_eq_getElem?_getD, List.getElem?_eq_getElem hlt]
  exact hcols _ (List.getElem_mem hlt)

theorem total_eq_zero (hcols : ∀ c ∈ p.columns, c.weight = 0.0) : p.total x = 0 := by
  refine Finset.sum_eq_zero fun j hj => ?_
  obtain ⟨h, hj⟩ := Finset.mem_Icc.1 hj
  rw [weight_eq_zero hcols h hj, exact_zero, zero_mul]

/-- **The objective of the problem values columns as the model's objective values variables.** -/
theorem objective_worth {name : Option String} {cols : List Column} {o : Objective}
    (hvars : (o.expression.factors.map (·.1.var)).Nodup) (hcols : ∀ c ∈ cols, c.weight = 0.0)
    (hlength : cols.length = m.decisions.length)
    (h : Translation.putObjective { decisions := m.decisions } { name, columns := cols } o =
      .ok p') :
    p'.worth? (m.vector a) = o.expression.worth? a ∧ p'.maximize = o.direction.isMaximize := by
  obtain ⟨ws, hws, h⟩ := bind_eq_ok.1 h
  obtain ⟨objectiveName, -, h⟩ := bind_eq_ok.1 h
  cases h
  -- the terms are linear, so that no column gets two weights
  have hws := Translation.weights_eq_ok hvars hws
  refine ⟨?_, rfl⟩
  have hrange : ∀ w ∈ ws, 1 ≤ w.1 ∧ w.1 ≤ ({ name, columns := cols } : Problem).columnCount := by
    intro w hw
    obtain ⟨i, hi, rfl⟩ := List.getElem_of_mem hw
    obtain ⟨c, ⟨hplace, -⟩, -⟩ := hws.get (hws.length_eq ▸ hi) hi
    obtain ⟨hle, hget⟩ := IndexMap.getElem?_of_place? hplace
    obtain ⟨hlt, -⟩ := List.getElem?_eq_some_iff.1 hget
    refine ⟨hle, ?_⟩
    show _ ≤ cols.length
    simp only [List.get_eq_getElem] at *
    omega
  have hzero : ∀ w ∈ ws, Limits.exact (({ name, columns := cols } : Problem).weight w.1) = 0 := by
    intro w hw
    rw [weight_eq_zero hcols (hrange w hw).1 (hrange w hw).2, exact_zero]
  have htotal : (ws.foldl (fun p (j, c) => p.setWeight j c)
      ({ name, columns := cols } : Problem)).total (m.vector a) = o.expression.total a := by
    rw [total_setWeights (nodup_weights hvars hws) hrange hzero, total_eq_zero hcols, zero_add,
      sum_weights hws]
    rfl
  rw [Expression.worth?, ← htotal]
  exact congrArg (fun y => (exactValue? o.expression.constant).map (· + y)) (total_congr rfl)

/-! ### The whole -/

section

variable {cs : Store Constraint} {s s' : Store Interval} {values : Overrides} {t : Translation}
  {q : ℚ}

theorem within_column {v : Variable} {c : Column} (h : IsColumn s' v c)
    (heffective : s'.get v.cell = values.effective s v)
    (hvalues : ∀ y, values.lookup v.name = some y → ∃ z, y.toFloat = .ok z) :
    Within c.span.bounds.1 c.span.bounds.2 q ↔ values.Allows s v q := by
  obtain ⟨lower, upper, hl, hu, hwithin⟩ := IsColumn.within h
  rw [hwithin, allows_iff hvalues (heffective ▸ hl) (heffective ▸ hu)]

/-- The bounds of a row are those of its constraint when there is no constant to fold in. -/
theorem within_row {r : Ref Constraint} {i : Nat} {row : Row} {es : List Entry}
    (h : IsRow cs m.decisions r i row es)
    (hconstant : ((cs.get r).expression.constant == 0.0) = true) :
    Within row.span.bounds.1 row.span.bounds.2 q ↔ Within (cs.get r).lower (cs.get r).upper q := by
  obtain ⟨type, hclassify, hspan⟩ := h.span
  rw [foldConstant_of_zero hconstant] at hclassify hspan
  rw [hspan]
  exact within_congr (place?_keep hclassify).1 (place?_keep hclassify).2

theorem column_of_getElem {k : Nat} (hk : k < p.columns.length) :
    p.column (k + 1) = p.columns[k] := by
  rw [Problem.column, Problem.itemAt, if_neg (by omega), Nat.add_sub_cancel,
    List.getD_eq_getElem?_getD, List.getElem?_eq_getElem hk]
  rfl

/-- A loaded row has its span, and the coefficients that belong to it. -/
theorem row_load {k : Nat} (es : List Entry) (hk : k < p.rows.length) :
    (p.load es).row (k + 1) = { p.rows[k] with entries := Problem.rowEntries es (k + 1) } := by
  rw [Problem.row, Problem.itemAt, if_neg (by omega), Nat.add_sub_cancel,
    List.getD_eq_getElem?_getD]
  simp [Problem.load, hk]

/-- **Each row takes the value of its constraint's expression.** -/
theorem row_total {built : List (Row × List Entry)}
    (hbuilt : List.Forall₂ (fun r row => IsRow cs m.decisions r.1 r.2 row.1 row.2)
      (m.constraints.zipIdx 1) built) (hrows : p.rows = built.map Prod.fst)
    {k : Nat} (hk : k < m.constraints.length) :
    ((p.load (built.flatMap Prod.snd)).row (k + 1)).total (m.vector a) =
      (cs.get m.constraints[k]).expression.total a := by
  have hlength : built.length = m.constraints.length := by simpa using hbuilt.length_eq.symm
  have hkb : k < built.length := hlength ▸ hk
  have hrow := hbuilt.get (by simpa using hk) hkb
  simp only [List.get_eq_getElem, List.getElem_zipIdx] at hrow
  rw [row_load _ (by simpa [hrows] using hkb), Row.total, total_rowEntries, add_comm k 1,
    filter_built hbuilt hkb, sum_entries hrow.terms]
  rfl

theorem vector_succ {k : Nat} (hk : k < m.decisions.length) :
    m.vector a (k + 1) = a m.decisions[k] := by
  rw [Model.vector, Nat.add_sub_cancel, List.getElem?_eq_getElem hk]
  rfl

/-- Loading a matrix leaves the columns as they were laid out. -/
theorem column_of_translation (h : IsTranslation m cs s' p t) {k : Nat}
    (hk : k < m.decisions.length) (es : List Entry) :
    IsColumn s' m.decisions[k] ((p.load es).column (k + 1)) := by
  have hkp : k < p.columns.length := h.columns.length_eq ▸ hk
  rw [show (p.load es).column (k + 1) = p.columns[k] from column_of_getElem hkp]
  exact h.columns.get hk hkp

theorem rowCount_of_translation (h : IsTranslation m cs s' p t) (es : List Entry) :
    (p.load es).rowCount = m.constraints.length := by
  obtain ⟨built, hbuilt, hrows, -⟩ := h.rows
  have hlength : built.length = m.constraints.length := by simpa using hbuilt.length_eq.symm
  rw [Problem.rowCount_load, Problem.rowCount, hrows, List.length_map, hlength]

/-- A row of the loaded problem keeps its bounds when its constraint does. -/
theorem row_of_translation (h : IsTranslation m cs s' p t) {k : Nat}
    (hk : k < m.constraints.length)
    (hconstant : ((cs.get m.constraints[k]).expression.constant == 0.0) = true) :
    Within ((p.load t.matrix.entries).row (k + 1)).span.bounds.1
        ((p.load t.matrix.entries).row (k + 1)).span.bounds.2
        (((p.load t.matrix.entries).row (k + 1)).total (m.vector a)) ↔
      Within (cs.get m.constraints[k]).lower (cs.get m.constraints[k]).upper
        ((cs.get m.constraints[k]).expression.total a) := by
  obtain ⟨built, hbuilt, hrows, hentries⟩ := h.rows
  have hlength : built.length = m.constraints.length := by simpa using hbuilt.length_eq.symm
  have hkb : k < built.length := hlength ▸ hk
  have hkp : k < p.rows.length := by simpa [hrows] using hkb
  have hisRow := hbuilt.get (by simpa using hk) hkb
  simp only [List.get_eq_getElem, List.getElem_zipIdx] at hisRow
  rw [hentries, row_total hbuilt hrows hk, row_load _ hkp,
    show p.rows[k] = built[k].1 by simp [hrows]]
  have hwithin := within_row (q := (cs.get m.constraints[k]).expression.total a) hisRow hconstant
  exact hwithin

/-- The values of columns are feasible when the values of variables are allowed. -/
theorem satisfies_iff_feasible (h : IsTranslation m cs s' p t)
    (heffective : ∀ v ∈ m.decisions, s'.get v.cell = values.effective s v)
    (hvalues : ∀ v ∈ m.decisions, ∀ y, values.lookup v.name = some y → ∃ z, y.toFloat = .ok z)
    (hconstant : ∀ r ∈ m.constraints, ((cs.get r).expression.constant == 0.0) = true) :
    m.Satisfies cs s values a ↔ (p.load t.matrix.entries).Feasible (m.vector a) := by
  have hcount : (p.load t.matrix.entries).columnCount = m.decisions.length :=
    h.columns.length_eq.symm
  have hrowCount := rowCount_of_translation h t.matrix.entries
  have hcolumn := fun {k : Nat} (hk : k < m.decisions.length) =>
    column_of_translation h hk t.matrix.entries
  have hbounds := fun {k : Nat} (hk : k < m.decisions.length) (q : ℚ) =>
    within_column (q := q) (hcolumn hk) (heffective _ (List.getElem_mem hk))
      (hvalues _ (List.getElem_mem hk))
  have hrow := fun {k : Nat} (hk : k < m.constraints.length) =>
    row_of_translation (a := a) h hk (hconstant _ (List.getElem_mem hk))
  -- columns and rows count from one, the lists of the model from zero
  constructor
  · intro hs
    refine ⟨fun j h1 hj => ?_, fun j h1 hj hkind => ?_, fun i h1 hi => ?_⟩
    · obtain ⟨k, rfl⟩ : ∃ k, j = k + 1 := ⟨j - 1, by omega⟩
      have hk : k < m.decisions.length := hcount ▸ hj
      rw [vector_succ hk, hbounds hk]
      exact hs.bounds _ (List.getElem_mem hk)
    · obtain ⟨k, rfl⟩ : ∃ k, j = k + 1 := ⟨j - 1, by omega⟩
      have hk : k < m.decisions.length := hcount ▸ hj
      rw [vector_succ hk]
      exact hs.integral _ (List.getElem_mem hk) ((IsColumn.kind (hcolumn hk)).1 hkind)
    · obtain ⟨k, rfl⟩ : ∃ k, i = k + 1 := ⟨i - 1, by omega⟩
      have hk : k < m.constraints.length := hrowCount ▸ hi
      exact (hrow hk).2 (hs.constraints _ (List.getElem_mem hk))
  · intro hf
    refine ⟨fun v hv => ?_, fun v hv hdomain => ?_, fun r hr => ?_⟩
    · obtain ⟨k, hk, rfl⟩ := List.getElem_of_mem hv
      rw [← hbounds hk, ← vector_succ (a := a) hk]
      exact hf.columns _ (by omega) (by omega)
    · obtain ⟨k, hk, rfl⟩ := List.getElem_of_mem hv
      rw [← vector_succ (a := a) hk]
      exact hf.integral _ (by omega) (by omega) ((IsColumn.kind (hcolumn hk)).2 hdomain)
    · obtain ⟨k, hk, rfl⟩ := List.getElem_of_mem hr
      exact (hrow hk).1 (hf.rows _ (by omega) (by omega))

theorem isLinear_of_check (h : Translation.checkModel m cs = .ok ()) :
    ∀ o ∈ m.objectives, o.expression.isLinear = true :=
  (Translation.checkModel_eq_ok_iff.1 h).2.1

end

/-- **A translated model, once its matrix is loaded, is a problem with the same meaning.** The
factors are taken as the floats that they are read as. -/
theorem translate_preserves_meaning {w w' : Workspace} {vs : List Variable} {r : Ref Model}
    {values : Overrides} {name : Option String} {t : Translation} {arrays : ParallelArrays}
    (hbuilt : Modeling.Built false w vs)
    (hcheck : Translation.checkModel (w.models.get r) w.constraints = .ok ())
    (hconstant : ∀ c ∈ (w.models.get r).constraints,
      ((w.constraints.get c).expression.constant == 0.0) = true)
    (htranslate : (Translation.translate (w.models.get r) values { name }).run w =
      (.ok (p, t), w'))
    (harrays : t.matrix.build = .ok arrays) :
    ∃ loaded : Problem,
      (∀ (cell : Ref Lifetime) (u : Workspace), u.problems.get? cell = some (.live p) →
        (Problem.loadArrays cell arrays).run u =
          (.ok (), { u with problems := u.problems.put cell (.live loaded) })) ∧
      ∀ a : Variable → ℚ,
        ((w.models.get r).Satisfies w.constraints w.intervals values a ↔
          loaded.Feasible ((w.models.get r).vector a)) ∧
        match (w.models.get r).objectives.head? with
        | some o => loaded.worth? ((w.models.get r).vector a) = o.expression.worth? a ∧
            loaded.maximize = o.direction.isMaximize
        | none => loaded.worth? ((w.models.get r).vector a) = some 0 ∧
            loaded.maximize = false := by
  have hsound := hbuilt.sound
  have hcells := hsound.nodup_cells (hsound.nodup_decisions r)
  have hcomputed := (Translation.translate_ends values hcells w { name }).outcome
  rw [htranslate] at hcomputed
  obtain ⟨hfix, h⟩ := Translation.computed_eq_ok hcomputed.symm
  refine ⟨p.load t.matrix.entries, fun cell u hu => Translation.loadArrays_run harrays hu,
    fun a => ⟨?_, ?_⟩⟩
  · refine satisfies_iff_feasible h (fun v hv => ?_) (fun v hv y hy => ?_) hconstant
    · exact Overrides.get_fix hcells
        (fun u hu => hsound.cells u ((hsound.models r).decisions u hu)) hfix hv
    · exact Overrides.exists_toFloat_of_fix hfix hv hy
  · obtain ⟨name', cols, p', hlength, hcols, hobjective, hp⟩ := h.objective
    have hworth : (p.load t.matrix.entries).worth? ((w.models.get r).vector a) =
        p'.worth? ((w.models.get r).vector a) := by
      rw [hp]
      exact congrArg (fun y => (exactValue? p'.constant).map (· + y)) (total_congr rfl)
    have hmaximize : (p.load t.matrix.entries).maximize = p'.maximize := by
      rw [hp]
      rfl
    unfold Translation.objective at hobjective
    rw [hworth, hmaximize]
    split
    · next o ho =>
      rw [ho] at hobjective
      have hmem := List.mem_of_mem_head? ho
      have hvars := Expression.nodup_vars ((hsound.models r).objectives o hmem)
        (isLinear_of_check hcheck o hmem)
      exact objective_worth hvars hcols hlength hobjective
    · next ho =>
      rw [ho] at hobjective
      cases hobjective
      refine ⟨?_, rfl⟩
      rw [Problem.worth?, total_eq_zero hcols,
        show exactValue? (Problem.weight { name := name', columns := cols } 0) = some 0 from
          Decimal.exactValue?_eq_some_iff.2 Decimal.place?_zero]
      simp

/-- The sample with one variable fixed, and a value for a name that no variable has. -/
theorem sample_keeps_meaning : ∃ p t w' arrays,
    (Translation.translate (Modeling.sample.models.get ⟨0⟩)
        [("x", .real 1.5), ("y", .nothing)] { name := some "p" }).run Modeling.sample =
      (.ok (p, t), w') ∧
    t.matrix.build = .ok arrays ∧
    ∃ loaded : Problem, ∀ a : Variable → ℚ,
      ((Modeling.sample.models.get ⟨0⟩).Satisfies Modeling.sample.constraints
          Modeling.sample.intervals [("x", .real 1.5), ("y", .nothing)] a ↔
        loaded.Feasible ((Modeling.sample.models.get ⟨0⟩).vector a)) ∧
      loaded.maximize = true := by
  have hsound := Modeling.sample_built.sound
  obtain ⟨w', hrun, -⟩ := (Translation.translate_ends [("x", .real 1.5), ("y", .nothing)]
    (hsound.nodup_cells (hsound.nodup_decisions ⟨0⟩)) Modeling.sample
    { name := some "p" }).exists_run
  refine ⟨_, _, w', _, hrun, rfl, ?_⟩
  obtain ⟨loaded, -, h⟩ := translate_preserves_meaning Modeling.sample_built rfl
    (fun c hc => by
      obtain rfl : c = ⟨0⟩ := List.mem_singleton.1 hc
      rfl) hrun rfl
  exact ⟨loaded, fun a => ⟨(h a).1, (h a).2.2⟩⟩

end

end Optimization
