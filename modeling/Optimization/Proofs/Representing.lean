import Optimization.Proofs.Coefficients
import Optimization.Proofs.Edits
import Optimization.Proofs.Meaning
import Optimization.Proofs.Reconstructing

/-!
# What stands for a problem in a model

A problem whose columns have different names that the model does not use is added to the model
column by column, with its objective and its rows. Only the first free row is left out.

* `IsVariable`, `IsObjective`, `IsConstraint`, `Represents` : what stands for what;
* `newVariables_made`, `objective_eq`, `addRows_made` : the three parts;
* `addProblem_represents` : adding a problem adds what stands for it, and nothing else.
-/

namespace Optimization.Reconstruction
open Decimal (place? infinity negativeInfinity lt_iff)
open Expression (IsSum kept ofPairs)

/-! ### What stands for what -/

/-- A variable stands for column `j`. -/
structure IsVariable (s : Store Interval) (c : Column) (j : Nat) (v : Variable) : Prop where
  name : v.name = c.name.getD s!"x{j}"
  domain : v.domain = .integer ↔ c.kind ≠ .continuous
  bounds : s.get? v.cell = some ⟨.real c.span.bounds.1, .real c.span.bounds.2⟩

/-- An objective over the variables of the columns stands for that of a problem. -/
structure IsObjective (p : Problem) (vs : List Variable) (o : Objective) : Prop where
  name : o.name = Objective.nameOr p.objectiveName
  direction : o.direction = if p.maximize then .maximize else .minimize
  expression : IsSum vs (fun j => kept (p.weight j)) (p.weight 0) o.expression

/-- A constraint at a position of a model, over the variables of the columns, stands for a row. -/
structure IsConstraint (vs : List Variable) (r : Row) (position : Nat) (c : Constraint) : Prop where
  name : c.name = some (r.name.getD s!"c{position}")
  bounds : (c.lower, c.upper) = r.span.bounds
  expression : IsSum vs (fun j => kept (Problem.coefficientAt r.entries j)) 0.0 c.expression

/-- Variables, an objective and constraints, from a position of a model on, stand for a problem. The
first free row has no constraint. -/
structure Represents (p : Problem) (s : Store Interval) (cs : Store Constraint) (position : Nat)
    (vs : List Variable) (o : Objective) (rs : List (Ref Constraint)) : Prop where
  decisions : List.Forall₂ (fun (c : Column × Nat) v => IsVariable s c.1 c.2 v)
    (p.columns.zipIdx 1) vs
  cells : (vs.map (·.cell)).Nodup
  objective : IsObjective p vs o
  constraints : List.Forall₂ (fun (r : Row × Nat) c => IsConstraint vs r.1 r.2 (cs.get c))
    ((p.rows.eraseP (·.span.type = .free)).zipIdx position) rs

/-- The double-bounded columns have their bounds in order. -/
def Ordered (p : Problem) : Prop :=
  ∀ c ∈ p.columns, c.span.type = .range → c.span.lower ≤ c.span.upper

section

variable {p : Problem} {m : Model} {r : Ref Model} {w : Workspace} {vs : List Variable}

/-! ### Columns -/

/-- Nothing lies beyond the infinities. -/
theorem not_gt_infinity (x : Float) : ¬x > infinity ∧ ¬negativeInfinity > x := by
  refine ⟨fun h => ?_, fun h => ?_⟩
  · obtain ⟨q, p, hq, -, hlt⟩ := lt_iff.1 h
    rw [Decimal.place?_infinity, Option.some.injEq] at hq
    exact not_top_lt (hq ▸ hlt)
  · obtain ⟨q, p, -, hp, hlt⟩ := lt_iff.1 h
    rw [Decimal.place?_negativeInfinity, Option.some.injEq] at hp
    exact not_lt_bot (hp ▸ hlt)

/-- The bounds of a column of a proper problem are in order. -/
theorem not_inverted {c : Column} (hfixed : c.span.type = .fixed → c.span.upper = c.span.lower)
    (hrange : c.span.type = .range → c.span.lower ≤ c.span.upper) :
    ¬c.span.bounds.1 > c.span.bounds.2 := by
  unfold Span.bounds BoundType.carried
  cases ht : c.span.type with
  | free => exact (not_gt_infinity _).1
  | lower => exact (not_gt_infinity _).1
  | upper => exact (not_gt_infinity _).2
  | range => exact Decimal.not_gt_of_le (hrange ht)
  | fixed =>
    show ¬c.span.lower > c.span.upper
    rw [hfixed ht]
    intro h
    obtain ⟨p, q, hp, hq, hlt⟩ := lt_iff.1 h
    rw [hp, Option.some.injEq] at hq
    exact hlt.ne hq

/-- A column whose bounds are in order can become a variable. -/
theorem check_variableRequest {c : Column} {j : Nat} (hname : c.name ≠ some "")
    (hbounds : ¬c.span.bounds.1 > c.span.bounds.2) :
    (variableRequest j c).check = .ok (⟨.real c.span.bounds.1, .real c.span.bounds.2⟩,
      if c.kind = .continuous then .continuous else .integer) := by
  have hnonempty : ¬(c.name.getD s!"x{j}").isEmpty = true := by
    cases hc : c.name with
    | none => simp
    | some s =>
      rw [hc] at hname
      simpa using hname
  have hdomain : Variable.readDomain (.text
      (if c.kind = .continuous then Domain.continuous else .integer).text) =
        .ok (if c.kind = .continuous then .continuous else .integer) := by
    unfold Variable.readDomain
    simp only [Domain.ofText?_text]
    rfl
  unfold Variable.Request.check variableRequest
  simp only []
  rw [if_neg hnonempty]
  show (if c.span.bounds.1 > c.span.bounds.2 then _ else _) = _
  rw [if_neg hbounds]
  show (Variable.readDomain _ >>= _) = _
  rw [hdomain]
  rfl

/-- Columns that can become variables do so, in new cells. -/
theorem newVariables_made {cols : List (Column × Nat)}
    (hcheck : ∀ c ∈ cols, c.1.name ≠ some "" ∧ ¬c.1.span.bounds.1 > c.1.span.bounds.2)
    (w : Workspace) :
    ∃ vs intervals,
      (cols.mapM fun c => Modeling.newVariable (variableRequest c.2 c.1)).run w =
        (.ok vs, { w with intervals }) ∧
      Kept w.intervals intervals ∧
      List.Forall₂ (fun c v => IsVariable intervals c.1 c.2 v) cols vs ∧
      (∀ v ∈ vs, w.intervals.get? v.cell = none) ∧ (vs.map (·.cell)).Nodup := by
  induction cols generalizing w with
  | nil => exact ⟨[], w.intervals, rfl, fun _ _ => rfl, .nil, by simp, List.nodup_nil⟩
  | cons c cols ih =>
    obtain ⟨hname, hbounds⟩ := hcheck c List.mem_cons_self
    have hfirst := Modeling.run_newVariable (variableRequest c.2 c.1) w
    rw [check_variableRequest hname hbounds] at hfirst
    obtain ⟨vs, intervals, hrun, hkept, hvs, hnew, hcells⟩ :=
      ih (fun c hc => hcheck c (List.mem_cons_of_mem _ hc))
        { w with intervals := w.intervals.push ⟨.real c.1.span.bounds.1, .real c.1.span.bounds.2⟩ }
    have hpush := kept_push w.intervals ⟨.real c.1.span.bounds.1, .real c.1.span.bounds.2⟩
    have hcell := Store.get?_push_next w.intervals
      ⟨.real c.1.span.bounds.1, .real c.1.span.bounds.2⟩
    refine ⟨⟨w.intervals.next, (variableRequest c.2 c.1).name,
      if c.1.kind = .continuous then .continuous else .integer⟩ :: vs, intervals, ?_,
      hpush.trans hkept, .cons ⟨rfl, ?_, ?_⟩ hvs, ?_, ?_⟩
    · rw [List.mapM_cons, Action.run_bind_of_ok _ hfirst, Action.run_bind_of_ok _ hrun]
      rfl
    · show (if c.1.kind = .continuous then Domain.continuous else .integer) = .integer ↔ _
      split_ifs with hkind
      · simp [hkind]
      · simp [hkind]
    · rw [hkept _ (by rw [hcell]; rfl), hcell]
    · intro v hv
      rcases List.mem_cons.1 hv with rfl | hv
      · exact Store.get?_next _
      · exact hpush.get?_eq_none (hnew v hv)
    · rw [List.map_cons, List.nodup_cons]
      refine ⟨fun hmem => ?_, hcells⟩
      obtain ⟨v, hv, he⟩ := List.mem_map.1 hmem
      have hnone := hnew v hv
      rw [he, hcell] at hnone
      cases hnone

theorem newVariables_numbered (p : Problem) :
    newVariables p =
      (p.columns.zipIdx 1).mapM fun c => Modeling.newVariable (variableRequest c.2 c.1) := by
  rw [List.zipIdx_succ, List.mapM_map]
  rfl

/-! ### The objective -/

theorem objective_eq (hnodup : vs.Nodup) (hlength : vs.length = p.columns.length) :
    ∃ o, objective p vs = .ok o ∧ IsObjective p vs o := by
  have hkeys : ((vs.zip p.columns).map fun x => (x.1, x.2.weight)).map Prod.fst = vs := by
    rw [List.map_map]
    exact List.map_fst_zip hlength.le
  have hterms := Expression.ofTerms_eq (hkeys.symm ▸ hnodup) p.constant
  rw [List.map_map] at hterms
  refine ⟨⟨ofPairs ((vs.zip p.columns).map fun x => (x.1, x.2.weight)) p.constant,
    Objective.nameOr p.objectiveName, if p.maximize then .maximize else .minimize⟩, ?_, rfl, rfl,
    Expression.isSum_ofPairs (hkeys.symm ▸ hnodup) ?_ fun k hk => .inl ?_⟩
  · exact bind_eq_ok.2 ⟨_, hterms, rfl⟩
  · intro pair hpair
    rw [← hkeys]
    exact List.mem_map_of_mem hpair
  · have hk' : k < p.columns.length := hlength ▸ hk
    have hweight : p.weight (k + 1) = p.columns[k].weight := by
      rw [Problem.weight, if_neg (by omega), column_of_getElem hk']
    rw [hweight]
    refine List.mem_map.2 ⟨(vs[k], p.columns[k]), ?_, rfl⟩
    rw [← List.getElem_zip (h := by rw [List.length_zip]; omega)]
    exact List.getElem_mem _

/-! ### Rows -/

/-- The variables and coefficients of a row. -/
def rowPairs (vs : List Variable) (entries : List (Nat × Float)) : List (Variable × Float) :=
  entries.filterMap fun (j, x) => (vs[j - 1]?).map fun v => (v, x)

theorem mem_rowPairs {entries : List (Nat × Float)} {v : Variable} {x : Float} :
    (v, x) ∈ rowPairs vs entries ↔ ∃ j, (j, x) ∈ entries ∧ vs[j - 1]? = some v := by
  simp only [rowPairs, List.mem_filterMap, Option.map_eq_some_iff, Prod.exists, Prod.mk.injEq]
  constructor
  · rintro ⟨j, y, hentry, u, hu, rfl, rfl⟩
    exact ⟨j, hentry, hu⟩
  · rintro ⟨j, hentry, hv⟩
    exact ⟨j, x, hentry, v, hv, rfl, rfl⟩

/-- Different columns have different variables. -/
theorem nodup_rowPairs (hnodup : vs.Nodup) {entries : List (Nat × Float)}
    (hentries : (entries.map Prod.fst).Nodup)
    (hrange : ∀ entry ∈ entries, 1 ≤ entry.1 ∧ entry.1 ≤ vs.length) :
    ((rowPairs vs entries).map Prod.fst).Nodup := by
  rw [List.Nodup, List.pairwise_map] at hentries
  rw [List.Nodup, List.pairwise_map, rowPairs, List.pairwise_filterMap]
  refine hentries.imp_of_mem fun {a b} ha hb hne => ?_
  intro u hu v hv he
  obtain ⟨u', hu', rfl⟩ := Option.map_eq_some_iff.1 hu
  obtain ⟨v', hv', rfl⟩ := Option.map_eq_some_iff.1 hv
  obtain rfl : u' = v' := he
  have ha' := hrange a ha
  have hb' := hrange b hb
  have hplace := (List.getElem?_inj (by omega) hnodup).1 (hu'.trans hv'.symm)
  exact hne (by omega)

/-- A column that a row does not have gives it no variable. -/
theorem notMem_rowPairs (hnodup : vs.Nodup) {entries : List (Nat × Float)}
    (hrange : ∀ entry ∈ entries, 1 ≤ entry.1 ∧ entry.1 ≤ vs.length) {k : Nat} (hk : k < vs.length)
    (hnot : k + 1 ∉ entries.map Prod.fst) : vs[k] ∉ (rowPairs vs entries).map Prod.fst := by
  intro hvar
  obtain ⟨⟨v, x⟩, hpair, hv⟩ := List.mem_map.1 hvar
  obtain ⟨j, hentry, hget⟩ := mem_rowPairs.1 hpair
  have hj := hrange _ hentry
  have hk' : vs[k]? = some v := by
    rw [List.getElem?_eq_getElem hk, Option.some.injEq]
    exact hv.symm
  have hplace := (List.getElem?_inj (by omega) hnodup).1 (hget.trans hk'.symm)
  have hjk : j = k + 1 := by omega
  exact hnot (hjk ▸ List.mem_map_of_mem hentry)

theorem rowConstraint_eq (hnodup : vs.Nodup) {row : Row}
    (hentries : (row.entries.map Prod.fst).Nodup)
    (hrange : ∀ entry ∈ row.entries, 1 ≤ entry.1 ∧ entry.1 ≤ vs.length) :
    ∃ c, rowConstraint vs row = .ok c ∧ c.name = row.name ∧ (c.lower, c.upper) = row.span.bounds ∧
      IsSum vs (fun j => kept (Problem.coefficientAt row.entries j)) 0.0 c.expression := by
  have hpairs := nodup_rowPairs hnodup hentries hrange
  have hterms := Expression.ofTerms_eq hpairs 0.0
  rw [rowPairs, List.map_filterMap] at hterms
  refine ⟨⟨ofPairs (rowPairs vs row.entries) 0.0, row.name, row.span.bounds.1, row.span.bounds.2⟩,
    ?_, rfl, rfl, Expression.isSum_ofPairs hpairs ?_ fun k hk => ?_⟩
  · refine bind_eq_ok.2 ⟨_, ?_, rfl⟩
    rw [← rowPairs] at hterms
    rw [← hterms]
    congr 1
    refine List.filterMap_congr fun entry _ => ?_
    rw [Option.map_map]
    rfl
  · intro pair hpair
    obtain ⟨j, -, hv⟩ := mem_rowPairs.1 (show (pair.1, pair.2) ∈ _ from hpair)
    exact List.mem_of_getElem? hv
  · by_cases hmem : k + 1 ∈ row.entries.map Prod.fst
    · -- the column has a coefficient, and only one
      obtain ⟨⟨j, x⟩, hentry, rfl⟩ := List.mem_map.1 hmem
      left
      rw [Problem.coefficientAt, Keyed.lookup_of_mem hentries hentry]
      exact mem_rowPairs.2 ⟨_, hentry, by rw [Nat.add_sub_cancel, List.getElem?_eq_getElem hk]⟩
    · right
      refine ⟨notMem_rowPairs hnodup hrange hk hmem, ?_⟩
      rw [Problem.coefficientAt, Keyed.lookup_eq_none hmem]
      rfl

/-- Only the first free row is left out. -/
theorem constraintRows_eq (rows : List Row) :
    constraintRows rows = rows.eraseP (·.span.type = .free) := by
  induction rows with
  | nil => rfl
  | cons row rows ih =>
    rw [constraintRows, List.eraseP_cons]
    by_cases hfree : row.span.type = .free
    · simp [hfree]
    · simp [hfree, ih]

/-- A row is added at the end, under its name or under one of its position. -/
theorem addRow_run (hm : w.models.get? r = some m) {row : Row} {c : Constraint}
    (hc : rowConstraint vs row = .ok c) :
    (addRow r vs row).run w = (.ok (), { w with
      constraints := w.constraints.push
        { c with name := Model.constraintName none c.name m.constraints.length }
      models := w.models.put r
        { m with constraints := m.constraints ++ [w.constraints.next] } }) := by
  have hnew : (Modeling.newConstraint c).run w =
      (.ok w.constraints.next, { w with constraints := w.constraints.push c }) := rfl
  have hget := Store.get_of_get? (Store.get?_push_next w.constraints c)
  rw [addRow, hc, Action.run_bind_of_ok _ (Action.run_of _ _), Action.run_bind_of_ok _ hnew,
    Modeling.addConstraint, Action.run_modify]
  simp only [Model.addConstraint, hget, Store.get_of_get? hm, Store.put_push_next]

/-- Rows whose coefficients belong to different columns are added one by one. -/
theorem addRows_made (hm : w.models.get? r = some m) (hnodup : vs.Nodup) {rows : List Row}
    (hdistinct : ∀ row ∈ rows, (row.entries.map Prod.fst).Nodup)
    (hrange : ∀ row ∈ rows, ∀ entry ∈ row.entries, 1 ≤ entry.1 ∧ entry.1 ≤ vs.length) :
    ∃ rs constraints,
      (rows.forM (addRow r vs)).run w = (.ok (), { w with
        constraints
        models := w.models.put r { m with constraints := m.constraints ++ rs } }) ∧
      Kept w.constraints constraints ∧
      List.Forall₂ (fun row c => IsConstraint vs row.1 row.2 (constraints.get c))
        (rows.zipIdx m.constraints.length) rs ∧
      ∀ c ∈ rs, w.constraints.get? c = none := by
  induction rows generalizing w m with
  | nil =>
    refine ⟨[], w.constraints, ?_, fun _ _ => rfl, .nil, by simp⟩
    rw [List.append_nil, ← Store.get_of_get? hm, Store.put_get]
    rfl
  | cons row rows ih =>
    obtain ⟨c, hc, hname, hbounds, hsum⟩ := rowConstraint_eq hnodup
      (hdistinct row List.mem_cons_self) (hrange row List.mem_cons_self)
    have hrow := addRow_run (w := w) hm hc
    obtain ⟨rs, constraints, hrun, hkept, hrs, hnew⟩ := ih
      (w := { w with
        constraints := w.constraints.push
          { c with name := Model.constraintName none c.name m.constraints.length }
        models := w.models.put r
          { m with constraints := m.constraints ++ [w.constraints.next] } })
      (Store.get?_put_self hm) (fun row' hrow' => hdistinct row' (List.mem_cons_of_mem _ hrow'))
      fun row' hrow' => hrange row' (List.mem_cons_of_mem _ hrow')
    have hpush := kept_push w.constraints
      { c with name := Model.constraintName none c.name m.constraints.length }
    have hcell := Store.get?_push_next w.constraints
      { c with name := Model.constraintName none c.name m.constraints.length }
    refine ⟨w.constraints.next :: rs, constraints, ?_, hpush.trans hkept, .cons ?_ ?_, ?_⟩
    · have hforM : ((row :: rows).forM (addRow r vs)).run w =
          (do addRow r vs row; rows.forM (addRow r vs) : Action Unit).run w := rfl
      rw [hforM, Action.run_bind_of_ok _ hrow, hrun, Store.put_put, List.append_assoc]
      rfl
    · rw [Store.get_of_get? ((hkept _ (by rw [hcell]; rfl)).trans hcell)]
      refine ⟨?_, hbounds, hsum⟩
      show Model.constraintName none c.name m.constraints.length = _
      rw [hname]
      cases row.name <;> rfl
    · rw [List.length_append] at hrs
      exact hrs
    · intro c' hc'
      rcases List.mem_cons.1 hc' with rfl | hc'
      · exact Store.get?_next _
      · exact hpush.get?_eq_none (hnew c' hc')

/-! ### Whole problems -/

/-- The names that columns give to their variables. -/
def columnNames (p : Problem) : List String :=
  (p.columns.zipIdx 1).map fun (c, j) => c.name.getD s!"x{j}"

theorem columnNames_eq (p : Problem) : columnNames p = (requests p).map (·.name) := by
  rw [columnNames, requests, List.zipIdx_succ, List.map_map, List.map_map]
  rfl

theorem names_of_variables {s : Store Interval} {cols : List (Column × Nat)}
    (h : List.Forall₂ (fun c v => IsVariable s c.1 c.2 v) cols vs) :
    vs.map (·.name) = cols.map fun (c, j) => c.name.getD s!"x{j}" := by
  induction h with
  | nil => rfl
  | cons h _ ih => rw [List.map_cons, List.map_cons, h.name, ih]

/-- A model with what stands for a problem added to it. -/
def added (m : Model) (vs : List Variable) (o : Objective) (rs : List (Ref Constraint)) : Model :=
  { extend m vs with
    objectives := m.objectives ++ [o]
    constraints := m.constraints ++ rs }

/-- Variables with new names are all added. -/
theorem addAll_of_distinct (hm : w.models.get? r = some m)
    (hlookup : ∀ v ∈ vs, m.index.lookup v.name = none) (hdistinct : (vs.map (·.name)).Nodup) :
    (vs.forM (Modeling.addVariable r)).run w =
      (.ok (), { w with models := w.models.put r (extend m vs) }) := by
  rcases addAll_run hm vs hlookup with ⟨-, hadd⟩ | ⟨before, v, after, rfl, -, hmem, -⟩
  · exact hadd
  · rw [List.map_append, List.map_cons] at hdistinct
    exact absurd List.mem_cons_self (List.disjoint_of_nodup_append hdistinct hmem)

theorem addObjective_run (hm : w.models.get? r = some m) (o : Objective) :
    (Modeling.addObjective r o).run w =
      (.ok (), { w with models := w.models.put r (m.addObjective o) }) := by
  rw [Modeling.addObjective, Action.run_modify, Store.get_of_get? hm]

/-- **Adding a problem adds what stands for it, and nothing else.** -/
theorem addProblem_represents (hm : w.models.get? r = some m)
    (hindex : ∀ name, name ∉ m.decisions.map (·.name) → m.index.lookup name = none)
    (hp : p.Proper) (hordered : Ordered p) (hdistinct : (columnNames p).Nodup)
    (hunused : ∀ name ∈ columnNames p, name ∉ m.decisions.map (·.name)) :
    ∃ vs o rs intervals constraints journal,
      (addProblem r p).run w = (.ok (), { w with
        intervals, constraints, journal, models := w.models.put r (added m vs o rs) }) ∧
      Represents p intervals constraints m.constraints.length vs o rs ∧
      Kept w.intervals intervals ∧ (∀ v ∈ vs, w.intervals.get? v.cell = none) ∧
      Kept w.constraints constraints ∧ ∀ c ∈ rs, w.constraints.get? c = none := by
  have hcheck : ∀ c ∈ p.columns.zipIdx 1, c.1.name ≠ some "" ∧
      ¬c.1.span.bounds.1 > c.1.span.bounds.2 := by
    intro c hc
    have hmem := List.fst_mem_of_mem_zipIdx hc
    exact ⟨hp.named _ hmem, not_inverted (hp.fixed _ hmem) (hordered _ hmem)⟩
  obtain ⟨vs, intervals, hrun, hkept, hvs, hnew, hcells⟩ := newVariables_made hcheck w
  rw [← newVariables_numbered] at hrun
  have hnodup : vs.Nodup := hcells.of_map
  have hlength : vs.length = p.columns.length := by
    rw [← hvs.length_eq, List.length_zipIdx]
  have hnames : vs.map (·.name) = columnNames p := names_of_variables hvs
  have hmodel : (Modeling.model r).run { w with intervals } = (.ok m, { w with intervals }) := by
    rw [← Store.get_of_get? hm]
    rfl
  have hclashes : (clashes m vs).isEmpty = true := by
    rw [clashes_eq_nil (hnames.trans (columnNames_eq p))]
    intro request hrequest
    refine hunused _ ?_
    rw [columnNames_eq]
    exact List.mem_map_of_mem hrequest
  have hlookup : ∀ v ∈ vs, m.index.lookup v.name = none := fun v hv =>
    hindex _ (hunused _ (hnames ▸ List.mem_map_of_mem hv))
  have hadd := addAll_of_distinct (w := { w with intervals }) hm hlookup (hnames ▸ hdistinct)
  obtain ⟨o, ho, hobjective⟩ := objective_eq hnodup hlength
  have haddObjective := addObjective_run
    (w := { w with intervals, models := w.models.put r (extend m vs) }) (Store.get?_put_self hm) o
  rw [Store.put_put] at haddObjective
  have hsub : ∀ row ∈ constraintRows p.rows, row ∈ p.rows := fun row hrow => by
    rw [constraintRows_eq] at hrow
    exact List.mem_of_mem_eraseP hrow
  obtain ⟨rs, constraints, hrows, hkeptRows, hrs, hnewRows⟩ := addRows_made
    (w := { w with intervals, models := w.models.put r ((extend m vs).addObjective o) })
    (m := (extend m vs).addObjective o) (Store.get?_put_self hm) hnodup
    (fun row hrow => hp.distinct row (hsub row hrow)) fun row hrow entry hentry => by
      rw [hlength]
      exact hp.inRange row (hsub row hrow) entry hentry
  refine ⟨vs, o, rs, intervals, constraints, ?journal, ?run, ⟨hvs, hcells, hobjective, ?_⟩, hkept,
    hnew, hkeptRows, hnewRows⟩
  case run =>
    rw [addProblem, Action.run_bind_of_ok _ hrun, Action.run_bind_of_ok _ hmodel]
    simp only [hclashes, if_true]
    rw [ho, Action.run_bind_of_ok _ hadd, Action.run_bind_of_ok _ (Action.run_of _ _),
      Action.run_bind_of_ok _ haddObjective, Action.run_bind_of_ok _ hrows, Store.put_put]
    rfl
  · rw [← constraintRows_eq]
    exact hrs

end

end Optimization.Reconstruction
