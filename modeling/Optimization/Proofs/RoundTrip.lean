import Optimization.Proofs.Entries
import Optimization.Proofs.Representing

/-!
# A translated model comes back

A model that was translated into a problem, whose matrix was loaded, is made anew from the problem:
the same variables, objective and constraints, except for the first constraint without bounds, which
becomes the free row that stands for the objective.

* `SameVariable`, `SameObjective`, `SameConstraint`, `Mirrors` : what is the same in two models;
* `coefficient_of_entries` : the coefficients of a variable arrive in its column;
* `objective_of_translation`, `rows_of_translation` : the problem in between;
* `mirrors_of_represents` : the content that comes back;
* `reconstruct_translated` : the whole.

Bounds and factors count as the floats that they are read as.
-/

namespace Optimization
open Decimal (place? infinity negativeInfinity beq_iff lt_iff)
open Expression (kept IsSum)
open Reconstruction (IsVariable IsObjective IsConstraint Represents)
open Translation (IsColumn IsRow IsTerm IsWeight IsTranslation rowName)

/-! ### What is the same in two models -/

/-- Two variables have one name and one domain, and their bounds are equal floats. -/
structure SameVariable (s s' : Store Interval) (v v' : Variable) : Prop where
  name : v'.name = v.name
  domain : v'.domain = v.domain
  bounds : ∃ lower upper lower' upper',
    (s.get v.cell).lower.toFloat = .ok lower ∧ (s.get v.cell).upper.toFloat = .ok upper ∧
    s'.get? v'.cell = some ⟨.real lower', .real upper'⟩ ∧
    (lower' == lower) = true ∧ (upper' == upper) = true

/-- Two linear expressions have the same coefficients for the variables that correspond to each
other, and the second has no other variables. -/
structure SameSum (vs vs' : List Variable) (e e' : Expression) : Prop where
  linear : e'.isLinear = true
  nodup : (e'.factors.map (·.1.var)).Nodup
  vars : ∀ t ∈ e'.factors, t.1.var ∈ vs'
  coefficient : ∀ k (hk : k < vs.length) (hk' : k < vs'.length), ∃ x,
    (e.coefficient vs[k]).toFloat = .ok x ∧ e'.coefficient vs'[k] = .real x

/-- Two objectives have the same name and direction, the same constant and the same coefficients. An
empty name, which no objective is made with, and an unknown direction are not asked for. -/
structure SameObjective (vs vs' : List Variable) (o o' : Objective) : Prop where
  name : o.name ≠ "" → o'.name = o.name
  direction : o.direction = .minimize ∨ o.direction = .maximize → o'.direction = o.direction
  constant : o'.expression.constant = o.expression.constant
  expression : SameSum vs vs' o.expression o'.expression

/-- A constraint has the name of constraint `i` of another model or one from its number, no
constant, the same coefficients, and bounds that are equal to those with the constant folded in. -/
structure SameConstraint (vs vs' : List Variable) (i : Nat) (c c' : Constraint) : Prop where
  name : c'.name = some (rowName c.name i)
  constant : c'.expression.constant = 0.0
  expression : SameSum vs vs' c.expression c'.expression
  bounds : ∃ lower upper,
    normalizeRow (.real c.lower) (.real c.upper) (.real c.expression.constant) =
      .ok (.real lower, .real upper) ∧
    (c'.lower == lower) = true ∧ (c'.upper == upper) = true

/-- With its constant folded in, a constraint has no bounds. -/
def Constraint.isUnbounded (c : Constraint) : Bool :=
  let bounds := foldConstant c.lower c.upper c.expression.constant
  bounds.1 == negativeInfinity && bounds.2 == infinity

/-- The second model has the content of the first, but for the first constraint without bounds. -/
structure Mirrors (w u : Workspace) (m n : Model) : Prop where
  decisions : List.Forall₂ (SameVariable w.intervals u.intervals) m.decisions n.decisions
  objective : ∃ o o', m.objectives = [o] ∧ n.objectives = [o'] ∧
    SameObjective m.decisions n.decisions o o'
  constraints : List.Forall₂ (fun (c : Ref Constraint × Nat) c' =>
      SameConstraint m.decisions n.decisions c.2 (w.constraints.get c.1) (u.constraints.get c'))
    ((m.constraints.zipIdx 1).eraseP fun c => (w.constraints.get c.1).isUnbounded) n.constraints

/-! ### Bounds -/

section

variable {x y lower upper constant : Float}

theorem beq_of_place? {a : Decimal.Extended} (h : place? x = place? y) (hy : place? y = some a) :
    (x == y) = true :=
  beq_iff.2 ⟨a, h.trans hy, hy⟩

/-- Only bounds at both infinities are free. -/
theorem free_iff_of_classify {t : BoundType} (h : BoundType.classify lower upper = .ok t) :
    t = .free ↔ (lower == negativeInfinity && upper == infinity) = true := by
  obtain ⟨a, b, hl, hu, -, -, rfl⟩ := BoundType.classify_eq_ok_iff.1 h
  rw [Decimal.beq_eq_decide hl Decimal.place?_negativeInfinity,
    Decimal.beq_eq_decide hu Decimal.place?_infinity]
  unfold BoundType.ofPlaces
  split_ifs with hb ha ha hab <;> simp [ha, hb]

theorem same_zero (x : Float) : (Number.real x).same (.integer 0) = (x == 0.0) := by
  show (Number.compareFloatInt x 0 == some .eq) = (x == 0.0)
  rw [Bool.eq_iff_iff, beq_iff_eq, Expression.compareFloatInt_eq, beq_iff, Decimal.place?_zero,
    Decimal.exactValue?_eq_some_iff, Int.cast_zero]
  exact ⟨fun h => ⟨_, h, rfl⟩, fun ⟨a, h, ha⟩ => h.trans ha.symm⟩

theorem less_zero (x : Float) : (Number.real x).less (.integer 0) = decide (x < 0.0) := by
  show (Number.compareFloatInt x 0 == some .lt) = decide (x < 0.0)
  rw [Bool.eq_iff_iff, beq_iff_eq, decide_eq_true_eq, lt_iff, Decimal.place?_zero]
  unfold Number.compareFloatInt place?
  cases Decimal.parts x with
  | notANumber => simp
  | infinite negative =>
    cases negative with
    | true => simp [Decimal.bot_lt_ofRat]
    | false => simp
  | finite negative m e =>
    simp only [Int.cast_zero, Option.some.injEq]
    constructor
    · intro h
      split_ifs at h with hlt
      exact ⟨_, _, rfl, rfl, Decimal.ofRat_lt_ofRat.2 hlt⟩
    · rintro ⟨a, b, rfl, rfl, hlt⟩
      rw [if_pos (Decimal.ofRat_lt_ofRat.1 hlt)]

/-- On floats, both ways of folding in a constant agree. -/
theorem normalizeRow_real (lower upper constant : Float) :
    normalizeRow (.real lower) (.real upper) (.real constant) =
      .ok (.real (foldConstant lower upper constant).1,
        .real (foldConstant lower upper constant).2) := by
  unfold normalizeRow foldConstant
  rw [same_zero, less_zero]
  have hsame : (Number.real lower).same (.real upper) = (lower == upper) := rfl
  rw [hsame]
  cases constant == 0.0 with
  | true => rfl
  | false =>
    cases lower == upper with
    | true => by_cases hneg : constant < 0.0 <;> simp [hneg] <;> rfl
    | false => by_cases hneg : constant < 0.0 <;> simp [hneg] <;> rfl

end

/-! ### Coefficients on the way -/

section

variable {vs : List Variable} {e : Expression}

/-- An item that occurs once has its place. -/
theorem place?_getElem (hnodup : vs.Nodup) {k : Nat} (hk : k < vs.length) :
    IndexMap.place? vs[k] vs = some (k + 1) := by
  rw [IndexMap.place?, if_pos (List.getElem_mem hk), hnodup.idxOf_getElem]

/-- The coefficients of a linear expression arrive where its terms are kept by column. -/
theorem coefficient_of_entries (hl : e.isLinear = true)
    (hvars : (e.factors.map (·.1.var)).Nodup) (hsignificant : e.Significant) (hvs : vs.Nodup)
    {entries : List (Nat × Float)} (hentries : (entries.map Prod.fst).Nodup)
    (hterms : ∀ t ∈ e.factors, ∃ j x, IsTerm vs t j x ∧ (j, x) ∈ entries)
    (honly : ∀ j ∈ entries.map Prod.fst, ∃ t ∈ e.factors, IndexMap.place? t.1.var vs = some j)
    {k : Nat} (hk : k < vs.length) :
    ∃ x, (e.coefficient vs[k]).toFloat = .ok x ∧ (entries.lookup (k + 1)).getD 0.0 = x ∧
      kept x = x := by
  have hplace := place?_getElem hvs hk
  by_cases hmem : vs[k] ∈ e.factors.map (·.1.var)
  · obtain ⟨t, ht, hvar⟩ := List.mem_map.1 hmem
    obtain ⟨j, x, ⟨hj, hx⟩, hentry⟩ := hterms t ht
    have hjk : j = k + 1 := by
      rw [hvar, hplace, Option.some.injEq] at hj
      exact hj.symm
    subst hjk
    refine ⟨x, ?_, by rw [Keyed.lookup_of_mem hentries hentry]; rfl,
      Expression.kept_of_significant (Number.significant_of_toFloat (hsignificant t ht) hx)⟩
    rw [← hvar, Expression.coefficient_of_mem hl hvars ht]
    exact hx
  · have hnone : entries.lookup (k + 1) = none := by
      refine Keyed.lookup_eq_none fun hkey => hmem ?_
      obtain ⟨t, ht, hj⟩ := honly _ hkey
      rw [← Translation.place?_injective hj hplace]
      exact List.mem_map_of_mem ht
    refine ⟨0.0, ?_, by rw [hnone]; rfl, Expression.kept_zero⟩
    rw [Expression.coefficient_of_notMem hl hmem]
    rfl

/-- An expression that is a sum of kept coefficients has those of another one. -/
theorem sameSum_of_isSum {vs' : List Variable} {e' : Expression} {f : Nat → Float} {c : Float}
    (h : IsSum vs' (fun j => kept (f j)) c e')
    (hf : ∀ k (hk : k < vs.length), ∃ x,
      (e.coefficient vs[k]).toFloat = .ok x ∧ f (k + 1) = x ∧ kept x = x) :
    SameSum vs vs' e e' where
  linear := h.linear
  nodup := h.nodup
  vars := h.vars
  coefficient k hk hk' := by
    obtain ⟨x, hx, hfx, hkept⟩ := hf k hk
    exact ⟨x, hx, by rw [h.coefficient k hk', hfx, hkept]⟩

end

/-! ### Lists -/

section

variable {α β γ : Type} {R : α → β → Prop} {S : β → γ → Prop} {T : α → γ → Prop} {xs : List α}
  {ys : List β} {zs : List γ}

theorem forall₂_trans (hxy : List.Forall₂ R xs ys) (hyz : List.Forall₂ S ys zs)
    (h : ∀ {x y z}, R x y → S y z → T x z) : List.Forall₂ T xs zs := by
  induction hxy generalizing zs with
  | nil =>
    cases hyz
    exact .nil
  | cons hr _ ih =>
    cases hyz with
    | cons hs hyz => exact .cons (h hr hs) (ih hyz)

/-- Without the first items that tests pick out, what corresponds still corresponds. -/
theorem forall₂_eraseP {p : α → Bool} {q : β → Bool} (h : List.Forall₂ R xs ys)
    (hpq : ∀ x y, R x y → p x = q y) : List.Forall₂ R (xs.eraseP p) (ys.eraseP q) := by
  induction h with
  | nil => exact .nil
  | @cons x y xs ys hxy hrest ih =>
    rw [List.eraseP_cons, List.eraseP_cons, ← hpq x y hxy]
    cases p x with
    | true => exact hrest
    | false => exact .cons hxy ih

/-- Numbers can be forgotten. -/
theorem forall₂_of_zipIdx {S : β × Nat → γ → Prop} {n : Nat}
    (h : List.Forall₂ S (ys.zipIdx n) zs) : List.Forall₂ (fun y z => ∃ i, S (y, i) z) ys zs := by
  have hfst : List.Forall₂ (fun y z => ∃ i, S (y, i) z) ((ys.zipIdx n).map Prod.fst) zs :=
    List.forall₂_map_left_iff.2 (h.imp fun y z hs => ⟨y.2, hs⟩)
  rwa [List.zipIdx_map_fst] at hfst

end

/-! ### The problem in between -/

section

variable {m : Model} {cs : Store Constraint} {s : Store Interval} {p : Problem} {t : Translation}
  {v : Variable} {c : Column}

theorem IsColumn.name (h : IsColumn s v c) : c.name = Problem.keptName v.name := by
  obtain ⟨t, lower, upper, weight, -, rfl⟩ := h
  cases Translation.columnKind v.domain (s.get v.cell) <;> rfl

/-- The bounds of a range are those that are kept. -/
theorem bounds_of_range {span : Span} (h : span.type = .range) :
    span.bounds = (span.lower, span.upper) := by
  unfold Span.bounds
  rw [h]
  rfl

/-- A column whose variable has its bounds in order has its own in order. -/
theorem IsColumn.ordered (h : IsColumn s v c)
    (hordered : ∀ lower upper, (s.get v.cell).lower.toFloat = .ok lower →
      (s.get v.cell).upper.toFloat = .ok upper → lower ≤ upper)
    (hrange : c.span.type = .range) : c.span.lower ≤ c.span.upper := by
  obtain ⟨lower, upper, -, hl, hu, -, hlower, hupper⟩ := IsColumn.places h
  obtain ⟨a, b, ha, hb, hle⟩ := Decimal.le_iff.1 (hordered lower upper hl hu)
  rw [bounds_of_range hrange] at hlower hupper
  exact Decimal.le_iff.2 ⟨a, b, hlower.trans ha, hupper.trans hb, hle⟩

/-- A variable that stands for the column of another one is the same. -/
theorem sameVariable_of_column {s' : Store Interval} {v' : Variable} {j : Nat} (hv : v.name ≠ "")
    (h : IsColumn s v c) (h' : IsVariable s' c j v') : SameVariable s s' v v' where
  name := by
    rw [h'.name, IsColumn.name h, Problem.keptName, if_neg (by simpa using hv)]
    rfl
  domain := by
    have hdomain : v'.domain = .integer ↔ v.domain = .integer := h'.domain.trans (IsColumn.kind h)
    cases hd : v.domain <;> cases hd' : v'.domain <;> simp_all
  bounds := by
    obtain ⟨lower, upper, t, hl, hu, ht, hlower, hupper⟩ := IsColumn.places h
    obtain ⟨a, b, ha, hb, -⟩ := BoundType.classify_eq_ok_iff.1 ht
    exact ⟨lower, upper, _, _, hl, hu, h'.bounds, beq_of_place? hlower ha, beq_of_place? hupper hb⟩

/-- Columns are named like their variables. -/
theorem columnNames_of_translation (h : IsTranslation m cs s p t)
    (hnamed : ∀ v ∈ m.decisions, v.name ≠ "") (es : List Entry) :
    Reconstruction.columnNames (p.load es) = m.decisions.map (·.name) := by
  refine List.ext_getElem ?_ fun k hk hk' => ?_
  · rw [Reconstruction.columnNames, List.length_map, List.length_zipIdx, List.length_map]
    exact h.columns.length_eq.symm
  · rw [List.length_map] at hk'
    have hname := IsColumn.name (h.columns.get hk' (h.columns.length_eq ▸ hk'))
    rw [Problem.keptName, if_neg (by simpa using hnamed _ (List.getElem_mem hk'))] at hname
    simp only [List.get_eq_getElem] at hname
    simp only [Reconstruction.columnNames, Problem.load, List.getElem_map, List.getElem_zipIdx,
      hname, Option.getD_some]

/-! ### The objective in between -/

/-- Weights for different columns arrive there, and the others stay. -/
theorem weight_setWeights {ws : List (Nat × Float)} (hkeys : (ws.map Prod.fst).Nodup)
    (hrange : ∀ w ∈ ws, 1 ≤ w.1 ∧ w.1 ≤ p.columnCount) (j : Nat) :
    (ws.foldl (fun p (j, x) => p.setWeight j x) p).weight j =
      (ws.lookup j).getD (p.weight j) := by
  induction ws generalizing p with
  | nil => rfl
  | cons w ws ih =>
    obtain ⟨i, x⟩ := w
    obtain ⟨hone, hle⟩ := hrange (i, x) List.mem_cons_self
    rw [List.map_cons, List.nodup_cons] at hkeys
    rw [List.foldl_cons, ih hkeys.2 fun w hw => by
      rw [Problem.columnCount_setWeight]
      exact hrange w (List.mem_cons_of_mem _ hw), weight_setWeight hone hle]
    by_cases hj : j = i
    · subst hj
      rw [Keyed.lookup_eq_none hkeys.1]
      simp
    · have hne : (j == i) = false := by simpa using hj
      simp [List.lookup_cons, hne, hj]

/-- The objective of a translated problem is that of the model. -/
theorem objective_of_translation (h : IsTranslation m cs s p t) {o : Objective}
    (hobjective : m.objectives = [o]) (hl : o.expression.isLinear = true)
    (hvars : (o.expression.factors.map (·.1.var)).Nodup)
    (hsignificant : o.expression.Significant) :
    p.objectiveName = Problem.keptName o.name ∧ p.maximize = o.direction.isMaximize ∧
      p.weight 0 = o.expression.constant ∧
      ∀ k (hk : k < m.decisions.length), ∃ x,
        (o.expression.coefficient m.decisions[k]).toFloat = .ok x ∧ p.weight (k + 1) = x ∧
          kept x = x := by
  obtain ⟨name, cols, p', hlength, hcols, hput, hp⟩ := h.objective
  rw [Translation.objective, hobjective] at hput
  obtain ⟨ws, hws, hput⟩ := bind_eq_ok.1 hput
  obtain ⟨label, hlabel, hput⟩ := bind_eq_ok.1 hput
  cases Translation.limitName_eq_ok hlabel
  cases hput
  rw [hp]
  refine ⟨rfl, rfl, rfl, fun k hk => ?_⟩
  have hweights := Translation.weights_eq_ok hvars hws
  have hrange : ∀ w ∈ ws, 1 ≤ w.1 ∧ w.1 ≤ ({ name, columns := cols } : Problem).columnCount := by
    intro w hw
    obtain ⟨term, -, x, hx, -⟩ := Translation.exists_left_of_forall₂ hweights hw
    rw [Problem.columnCount, hlength]
    exact Translation.place?_le hx.1
  have hkeys := nodup_weights hvars hweights
  have hweight : (ws.foldl (fun p (j, x) => p.setWeight j x)
      ({ name, columns := cols } : Problem)).weight (k + 1) = (ws.lookup (k + 1)).getD 0.0 := by
    have hzero : ({ name, columns := cols } : Problem).weight (k + 1) = 0.0 :=
      weight_eq_zero hcols (by omega) (Nat.lt_of_lt_of_eq hk hlength.symm)
    rw [weight_setWeights hkeys hrange, hzero]
  obtain ⟨x, hx, hlookup, hkept⟩ := coefficient_of_entries hl hvars hsignificant h.nodup hkeys
    (fun term hterm => by
      obtain ⟨w, hw, x, hx, hzero⟩ := Translation.exists_right_of_forall₂ hweights hterm
      have hcounts := Number.significant_of_toFloat (hsignificant term hterm) hx.2
      rw [Number.zero_add_of_significant hcounts] at hzero
      exact ⟨w.1, x, hx, hzero ▸ hw⟩)
    (fun j hj => by
      obtain ⟨w, hw, rfl⟩ := List.mem_map.1 hj
      obtain ⟨term, hterm, x, hx, -⟩ := Translation.exists_left_of_forall₂ hweights hw
      exact ⟨term, hterm, hx.1⟩) hk
  exact ⟨x, hx, hweight.trans hlookup, hkept⟩

/-! ### The rows in between -/

/-- Once the matrix is loaded, a row has the entries of its constraint that are not zero. -/
theorem rows_of_translation (h : IsTranslation m cs s p t) :
    List.Forall₂ (fun (c : Ref Constraint × Nat) (row : Row) => ∃ es,
      IsRow cs m.decisions c.1 c.2 { row with entries := [] } es ∧
        ∀ j x, (j, x) ∈ row.entries ↔ ⟨c.2, j, x⟩ ∈ es ∧ (x != 0.0) = true)
      (m.constraints.zipIdx 1) (p.load t.matrix.entries).rows := by
  obtain ⟨built, hbuilt, hrows, hentries⟩ := h.rows
  refine List.forall₂_of_length_eq_of_get ?_ fun k hk hk' => ?_
  · simp [Problem.load, hrows, hbuilt.length_eq]
  · have hkb : k < built.length := hbuilt.length_eq ▸ hk
    have hrow := hbuilt.get hk hkb
    have hfilter := filter_built hbuilt hkb
    simp only [List.get_eq_getElem, List.getElem_zipIdx] at hrow ⊢
    have hloaded : (p.load t.matrix.entries).rows[k] =
        { built[k].1 with entries := Problem.rowEntries t.matrix.entries (k + 1) } := by
      simp [Problem.load, hrows]
    rw [hloaded]
    refine ⟨built[k].2, ?_, fun j x => ?_⟩
    · rw [← hrow.entries]
      exact hrow
    · rw [Problem.mem_rowEntries, hentries, ← hfilter, List.mem_filter, add_comm k 1]
      simp

/-- Every row gets a name. -/
theorem rowName_ne (name : Option String) (i : Nat) : ¬(rowName name i).isEmpty = true := by
  unfold rowName
  split
  · next s hs =>
    obtain ⟨-, hne⟩ := Option.filter_eq_some_iff.1 hs
    simpa using hne
  · simp

/-- A constraint that stands for the row of another one is the same. -/
theorem sameConstraint_of_row {vs' : List Variable} {r : Ref Constraint} {i j : Nat} {row : Row}
    {es : List Entry} {c' : Constraint} (hvs : m.decisions.Nodup)
    (hl : (cs.get r).expression.isLinear = true) (hformed : (cs.get r).expression.Formed)
    (hrow : IsRow cs m.decisions r i { row with entries := [] } es)
    (hentries : ∀ j x, (j, x) ∈ row.entries ↔ ⟨i, j, x⟩ ∈ es ∧ (x != 0.0) = true)
    (hnodup : (row.entries.map Prod.fst).Nodup) (h : IsConstraint vs' row j c') :
    SameConstraint m.decisions vs' i (cs.get r) c' := by
  have hsignificant := hformed.significant
  have hname : row.name = some (rowName (cs.get r).name i) := by
    have hrowName := hrow.name
    rwa [Problem.keptName, if_neg (rowName_ne _ _)] at hrowName
  obtain ⟨t, ht, hspan⟩ := hrow.span
  refine ⟨?_, h.expression.constant, sameSum_of_isSum h.expression fun k hk => ?_, _, _,
    normalizeRow_real _ _ _, ?_⟩
  · rw [h.name, hname]
    rfl
  · refine coefficient_of_entries hl (Expression.nodup_vars hformed.distinct hl) hsignificant hvs
      hnodup (fun term hterm => ?_) (fun j hj => ?_) hk
    · obtain ⟨entry, hentry, hplace⟩ := Translation.exists_right_of_forall₂ hrow.terms hterm
      have hcounts := Number.significant_of_toFloat (hsignificant term hterm) hplace.2.2
      refine ⟨entry.column, entry.coefficient, hplace.2, (hentries _ _).2 ⟨?_, ?_⟩⟩
      · rw [← hplace.1]
        exact hentry
      · exact Number.ne_zero_of_significant hcounts
    · obtain ⟨entry, hentry, rfl⟩ := List.mem_map.1 hj
      obtain ⟨term, hterm, hplace⟩ :=
        Translation.exists_left_of_forall₂ hrow.terms ((hentries _ _).1 hentry).1
      exact ⟨term, hterm, hplace.2.1⟩
  · obtain ⟨a, b, ha, hb, -⟩ := BoundType.classify_eq_ok_iff.1 ht
    obtain ⟨hlower, hupper⟩ := place?_keep ht
    obtain ⟨hl', hu'⟩ := Prod.mk.inj (h.bounds.trans (congrArg Span.bounds hspan))
    rw [hl', hu']
    exact ⟨beq_of_place? hlower ha, beq_of_place? hupper hb⟩

/-- The row of a constraint without bounds is free. -/
theorem isUnbounded_eq {vs : List Variable} {r : Ref Constraint} {i : Nat} {row : Row}
    {es : List Entry} (h : IsRow cs vs r i { row with entries := [] } es) :
    (cs.get r).isUnbounded = decide (row.span.type = .free) := by
  obtain ⟨t, ht, hspan⟩ := h.span
  have htype : row.span.type = t := (congrArg Span.type hspan).trans (Span.type_keep _ _ _)
  rw [htype, Bool.eq_iff_iff, decide_eq_true_eq, free_iff_of_classify ht]
  rfl

end

/-! ### The whole -/

/-- What stands for a translated problem in an empty model has the content of the model. -/
theorem mirrors_of_represents {w u : Workspace} {m : Model} {p : Problem} {t : Translation}
    {vs : List Variable} {o o' : Objective} {rs : List (Ref Constraint)} {label : Scalar}
    (h : IsTranslation m w.constraints w.intervals p t) (hobjective : m.objectives = [o])
    (hnamed : ∀ v ∈ m.decisions, v.name ≠ "") (hlinear : o.expression.isLinear = true)
    (hformed : o.expression.Formed)
    (hlinears : ∀ c ∈ m.constraints, (w.constraints.get c).expression.isLinear = true)
    (hformeds : ∀ c, (w.constraints.get c).expression.Formed)
    (hproper : (p.load t.matrix.entries).Proper)
    (hrepresents : Represents (p.load t.matrix.entries) u.intervals u.constraints 0 vs o' rs) :
    Mirrors w u m (Reconstruction.added (.empty label) vs o' rs) where
  decisions := by
    have hcolumns := (List.forall₂_and_left _ _).2 ⟨hnamed, h.columns⟩
    refine forall₂_trans hcolumns (forall₂_of_zipIdx hrepresents.decisions) ?_
    rintro v c v' ⟨hname, hcolumn⟩ ⟨j, hvariable⟩
    exact sameVariable_of_column hname hcolumn hvariable
  objective := by
    refine ⟨o, o', hobjective, rfl, ?_⟩
    obtain ⟨hname, hmaximize, hconstant, hweights⟩ := objective_of_translation h hobjective hlinear
      (Expression.nodup_vars hformed.distinct hlinear) hformed.significant
    have hrep := hrepresents.objective
    refine ⟨fun hne => ?_, fun hdirection => ?_, hrep.expression.constant.trans hconstant,
      sameSum_of_isSum hrep.expression hweights⟩
    · have hempty : ¬o.name.isEmpty = true := by simpa using hne
      have hkept : (p.load t.matrix.entries).objectiveName = some o.name := by
        rw [Problem.keptName, if_neg hempty] at hname
        exact hname
      rw [hrep.name, hkept, Objective.nameOr, if_neg hempty]
    · have hkept : (p.load t.matrix.entries).maximize = o.direction.isMaximize := hmaximize
      rw [hrep.direction, hkept]
      rcases hdirection with hd | hd <;> rw [hd] <;> rfl
  constraints := by
    have hrows := (List.forall₂_and_left _ _).2
      ⟨fun c hc => hlinears _ (List.fst_mem_of_mem_zipIdx hc), rows_of_translation h⟩
    have hkept := forall₂_eraseP (q := (·.span.type = .free)) hrows
      fun c row ⟨_, es, hrow, _⟩ => isUnbounded_eq hrow
    have hmade := (List.forall₂_and_left _ _).2
      ⟨fun row hrow => hproper.distinct row (List.mem_of_mem_eraseP hrow),
        forall₂_of_zipIdx hrepresents.constraints⟩
    refine forall₂_trans hkept hmade ?_
    rintro ⟨c, i⟩ row c' ⟨hlinear, es, hrow, hentries⟩ ⟨hdistinct, j, hconstraint⟩
    exact sameConstraint_of_row h.nodup hlinear (hformeds c) hrow hentries hdistinct hconstraint

/-- **A model comes back from its problem.** It has one objective, passes the check, and its
variables have their bounds in order; if its list of variables was ever extended directly, these
still have different names. It is translated, the matrix is loaded, and the problem is added to an
empty model. This succeeds, and leaves the content of the model there. -/
theorem reconstruct_translated {direct : Bool} {w w' u : Workspace} {made : List Variable}
    {r r' : Ref Model} {cell : Ref Lifetime} {o : Objective} {name : Option String}
    {p : Problem} {t : Translation} {arrays : ParallelArrays} {label : Scalar}
    (hbuilt : Modeling.Built direct w made)
    (hnames : direct = true → ((w.models.get r).decisions.map (·.name)).Nodup)
    (hcheck : Translation.checkModel (w.models.get r) w.constraints = .ok ())
    (hobjective : (w.models.get r).objectives = [o])
    (hordered : ∀ v ∈ (w.models.get r).decisions, ∀ lower upper,
      (w.intervals.get v.cell).lower.toFloat = .ok lower →
      (w.intervals.get v.cell).upper.toFloat = .ok upper → lower ≤ upper)
    (htranslate : (Translation.translate (w.models.get r) [] { name }).run w = (.ok (p, t), w'))
    (harrays : t.matrix.build = .ok arrays) (hlive : u.problems.get? cell = some (.live p))
    (hempty : u.models.get? r' = some (.empty label)) :
    ∃ u' n, (do
        Problem.loadArrays cell arrays
        Reconstruction.reconstruct r' cell : Action Unit).run u = (.ok (), u') ∧
      u'.models.get? r' = some n ∧ Mirrors w u' (w.models.get r) n := by
  have hsound := hbuilt.sound
  have hmodel := hsound.models r
  have hconstructed := hbuilt.constructed
  have hnodup := Translation.nodup_of_translate htranslate
  have hcomputed := Translation.computed_of_translate (hsound.nodup_cells hnodup) htranslate
  obtain ⟨-, h⟩ := Translation.computed_eq_ok hcomputed
  rw [Overrides.fix_nil] at h
  have hdistinctNames : ((w.models.get r).decisions.map (·.name)).Nodup := by
    cases direct with
    | false => exact hmodel.names rfl
    | true => exact hnames rfl
  have hnamed : ∀ v ∈ (w.models.get r).decisions, v.name ≠ "" := fun v hv =>
    hconstructed.named v (hmodel.decisions v hv)
  have hlinear := Translation.constraints_linear hcheck
  have haccepted := Translation.accepted_of_translation h hlinear fun c _ => hsound.constraints c
  have hproper := Translation.proper_of_computed hcomputed haccepted
  have hload := Translation.loadArrays_run harrays hlive
  obtain ⟨vs, o', rs, intervals, constraints, journal, hrun, hrepresents, -⟩ :=
    Reconstruction.addProblem_represents
      (w := { u with problems := u.problems.put cell (.live (p.load t.matrix.entries)) })
      hempty (fun _ _ => rfl) hproper
      (fun c hc => by
        obtain ⟨v, hv, hcolumn⟩ := Translation.exists_left_of_forall₂ h.columns hc
        exact IsColumn.ordered hcolumn (hordered v hv))
      (by
        rw [columnNames_of_translation h hnamed]
        exact hdistinctNames)
      (by simp [Model.empty])
  refine ⟨{ u with
      problems := u.problems.put cell (.live (p.load t.matrix.entries))
      intervals, constraints, journal
      models := u.models.put r' (Reconstruction.added (.empty label) vs o' rs) },
    Reconstruction.added (.empty label) vs o' rs, ?_, Store.get?_put_self hempty,
    mirrors_of_represents h hobjective hnamed (isLinear_of_check hcheck o ?_)
      (hconstructed.objectives r o ?_) hlinear hconstructed.constraints hproper hrepresents⟩
  · rw [Action.run_bind_of_ok _ hload, Reconstruction.reconstruct,
      Action.run_bind_of_ok _ (Problem.live_run (Store.get?_put_self hlive)), hrun]
  · rw [hobjective]
    exact List.mem_singleton_self o
  · rw [hobjective]
    exact List.mem_singleton_self o

/-- The sample with a problem and an empty second model. -/
def sampleWithProblem (p : Problem) : Workspace :=
  { (Modeling.newModel (.empty (.text "copy"))).after Modeling.sample with
    problems := ({} : Store Lifetime).push (.live p) }

/-- The sample comes back in the second model. -/
theorem sample_comes_back : ∃ p t w' arrays u' n,
    (Translation.translate (Modeling.sample.models.get ⟨0⟩) [] { name := some "sample" }).run
      Modeling.sample = (.ok (p, t), w') ∧
    t.matrix.build = .ok arrays ∧
    (do
      Problem.loadArrays ⟨0⟩ arrays
      Reconstruction.reconstruct ⟨1⟩ ⟨0⟩ : Action Unit).run (sampleWithProblem p) = (.ok (), u') ∧
    u'.models.get? ⟨1⟩ = some n ∧
    Mirrors Modeling.sample u' (Modeling.sample.models.get ⟨0⟩) n := by
  have hsound := Modeling.sample_built.sound
  obtain ⟨p, t, arrays, hcomputed, harrays⟩ : ∃ p t arrays,
      Translation.computed (Modeling.sample.models.get ⟨0⟩) [] Modeling.sample.constraints
        Modeling.sample.intervals { name := some "sample" } = .ok (p, t) ∧
      t.matrix.build = .ok arrays := ⟨_, _, _, rfl, rfl⟩
  obtain ⟨w', hrun, -⟩ := (Translation.translate_ends []
    (hsound.nodup_cells (hsound.nodup_decisions ⟨0⟩)) Modeling.sample
    { name := some "sample" }).exists_run
  rw [hcomputed] at hrun
  have hordered : ∀ v ∈ (Modeling.sample.models.get ⟨0⟩).decisions, ∀ lower upper,
      (Modeling.sample.intervals.get v.cell).lower.toFloat = .ok lower →
      (Modeling.sample.intervals.get v.cell).upper.toFloat = .ok upper → lower ≤ upper := by
    intro v hv lower upper hl hu
    rcases List.mem_cons.1 hv with rfl | hv
    · cases hl
      cases hu
      decide
    · obtain rfl := List.mem_singleton.1 hv
      cases hl
      cases hu
      decide
  have hlive : (sampleWithProblem p).problems.get? ⟨0⟩ = some (.live p) := rfl
  have hempty : (sampleWithProblem p).models.get? ⟨1⟩ = some (.empty (.text "copy")) := rfl
  obtain ⟨u', n, hback, hn, hmirrors⟩ := reconstruct_translated Modeling.sample_built (by simp) rfl
    rfl hordered hrun harrays hlive hempty
  exact ⟨p, t, w', arrays, u', n, hrun, harrays, hback, hn, hmirrors⟩

end Optimization
