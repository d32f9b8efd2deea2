import Optimization.Proofs.Fixing
import Optimization.Proofs.Numbers

/-!
# Which models are translated

A translation is refused for one of a few reasons, each of them about one part of the model: an
override, the bounds or the name of a variable, the objective, or a constraint. Nothing else stands
in its way.

* `Succeeds` : a computation that is not refused; `succeeds_foldlM` for steps one after another;
* `Inexpressible` : what the check refuses;
* `succeeds_columns`, `succeeds_objective`, `succeeds_rows` : the parts of a translation;
* `Legible`, `Accepted` : what a translation asks for, `translate_accepts` : and nothing else.

Legible models are refused in two cases, for a constraint that is in the model twice and for an
integer factor beyond the floats.
-/

namespace Optimization
open Decimal (place?)

/-! ### Computations that are not refused -/

/-- A computation that is not refused. -/
def Succeeds {α : Type} (x : Except Fault α) : Prop := ∃ a, x = .ok a

section

variable {α β : Type}

@[simp] theorem succeeds_ok (a : α) : Succeeds (.ok a) := ⟨a, rfl⟩

@[simp] theorem succeeds_pure (a : α) : Succeeds (pure a) := ⟨a, rfl⟩

@[simp] theorem not_succeeds_error (fault : Fault) : ¬Succeeds (.error fault : Except Fault α) :=
  nofun

@[simp] theorem not_succeeds_throw (fault : Fault) : ¬Succeeds (throw fault : Except Fault α) :=
  nofun

instance (x : Except Fault α) : Decidable (Succeeds x) :=
  match x with
  | .ok a => .isTrue (succeeds_ok a)
  | .error fault => .isFalse (not_succeeds_error fault)

theorem succeeds_bind {x : Except Fault α} {f : α → Except Fault β} :
    Succeeds (x >>= f) ↔ ∃ a, x = .ok a ∧ Succeeds (f a) := by
  constructor
  · rintro ⟨b, h⟩
    obtain ⟨a, hx, ha⟩ := bind_eq_ok.1 h
    exact ⟨a, hx, b, ha⟩
  · rintro ⟨a, hx, b, ha⟩
    exact ⟨b, bind_eq_ok.2 ⟨a, hx, ha⟩⟩

/-- What does not depend on the result of a computation succeeds beside it. -/
theorem succeeds_bind_of_const {x : Except Fault α} {f : α → Except Fault β} {P : Prop}
    (h : ∀ a, x = .ok a → (Succeeds (f a) ↔ P)) : Succeeds (x >>= f) ↔ Succeeds x ∧ P := by
  rw [succeeds_bind]
  constructor
  · rintro ⟨a, hx, ha⟩
    exact ⟨⟨a, hx⟩, (h a hx).1 ha⟩
  · rintro ⟨⟨a, hx⟩, hP⟩
    exact ⟨a, hx, (h a hx).2 hP⟩

theorem succeeds_bind_pure {x : Except Fault α} {f : α → β} :
    Succeeds (x >>= fun a => pure (f a)) ↔ Succeeds x := by
  rw [succeeds_bind_of_const (P := True) fun _ _ => by simp]
  exact and_iff_left trivial

theorem succeeds_mapM {f : α → Except Fault β} {xs : List α} :
    Succeeds (xs.mapM f) ↔ ∀ x ∈ xs, Succeeds (f x) := by
  induction xs with
  | nil => simp
  | cons x xs ih =>
    rw [List.mapM_cons, List.forall_mem_cons, ← ih]
    exact succeeds_bind_of_const fun y _ => succeeds_bind_pure

section

variable {f : β → α → Except Fault β} {I : List α → β → Prop} {P : List α → α → Prop}
  {xs seen : List α} {b : β}

theorem succeeds_foldlM_after (hstep : ∀ seen b a, I seen b → (Succeeds (f b a) ↔ P seen a))
    (hnext : ∀ seen b a b', I seen b → f b a = .ok b' → I (seen ++ [a]) b') (hb : I seen b) :
    Succeeds (xs.foldlM f b) ↔ ∀ i (hi : i < xs.length), P (seen ++ xs.take i) xs[i] := by
  induction xs generalizing seen b with
  | nil => simp
  | cons x xs ih =>
    have hrest : ∀ b', f b x = .ok b' → (Succeeds (xs.foldlM f b') ↔
        ∀ i (hi : i < xs.length), P (seen ++ (x :: xs).take (i + 1)) xs[i]) := by
      intro b' hb'
      rw [ih (hnext seen b x b' hb hb')]
      simp
    rw [List.foldlM_cons, succeeds_bind_of_const hrest, hstep seen b x hb]
    constructor
    · rintro ⟨hx, hxs⟩ i hi
      cases i with
      | zero => simpa using hx
      | succ i => exact hxs i (Nat.lt_of_succ_lt_succ hi)
    · intro h
      refine ⟨by simpa using h 0 (Nat.succ_pos _), fun i hi => ?_⟩
      exact h (i + 1) (Nat.succ_lt_succ hi)

/-- **Steps one after another succeed when each of them does.** `I` is what is known of the state
after the items seen so far, and `P` is what a step needs. -/
theorem succeeds_foldlM (hstep : ∀ seen b a, I seen b → (Succeeds (f b a) ↔ P seen a))
    (hnext : ∀ seen b a b', I seen b → f b a = .ok b' → I (seen ++ [a]) b') (hb : I [] b) :
    Succeeds (xs.foldlM f b) ↔ ∀ i (hi : i < xs.length), P (xs.take i) xs[i] :=
  succeeds_foldlM_after hstep hnext hb

end

/-- No item is among those before it. -/
theorem nodup_iff_notMem_take {xs : List α} :
    xs.Nodup ↔ ∀ i (hi : i < xs.length), xs[i] ∉ xs.take i := by
  rw [List.Nodup, List.pairwise_iff_getElem]
  constructor
  · intro h i hi hmem
    obtain ⟨j, hj, he⟩ := List.mem_take_iff_getElem.1 hmem
    exact h j i (by omega) hi (by omega) he
  · intro h i j hi hj hij he
    exact h j hj (List.mem_take_iff_getElem.2 ⟨i, by omega, he⟩)

end

/-! ### Bounds and terms -/

/-- Bounds that a column or a row can have: both are numbers, and none is an infinity on the wrong
side. -/
def BoundType.Admissible (lower upper : Float) : Prop :=
  ∃ a b, place? lower = some a ∧ place? upper = some b ∧ a ≠ ⊤ ∧ b ≠ ⊥

theorem BoundType.succeeds_classify {lower upper : Float} :
    Succeeds (classify lower upper) ↔ Admissible lower upper := by
  constructor
  · rintro ⟨t, ht⟩
    obtain ⟨a, b, hl, hu, ha, hb, -⟩ := classify_eq_ok_iff.1 ht
    exact ⟨a, b, hl, hu, ha, hb⟩
  · rintro ⟨a, b, hl, hu, ha, hb⟩
    exact ⟨_, classify_of_place? hl hu ha hb⟩

instance (lower upper : Float) : Decidable (BoundType.Admissible lower upper) :=
  decidable_of_iff _ BoundType.succeeds_classify

/-- Both bounds read as floats that a column can have. -/
def Interval.Admissible (b : Interval) : Prop :=
  ∃ lower upper, b.lower.toFloat = .ok lower ∧ b.upper.toFloat = .ok upper ∧
    BoundType.Admissible lower upper

/-- The bounds of a constraint, its constant folded in, are bounds that a row can have. -/
def Constraint.Admissible (c : Constraint) : Prop :=
  let bounds := foldConstant c.lower c.upper c.expression.constant
  BoundType.Admissible bounds.1 bounds.2

/-- The variables of an expression are among the given ones. -/
def Expression.Over (vs : List Variable) (e : Expression) : Prop :=
  ∀ term ∈ e.factors, term.1.var ∈ vs

/-- No factor of an expression is an integer beyond the floats. -/
def Expression.Fits (e : Expression) : Prop := ∀ term ∈ e.factors, term.2.Fits

instance (c : Constraint) : Decidable c.Admissible :=
  inferInstanceAs (Decidable (BoundType.Admissible _ _))

instance (vs : List Variable) (e : Expression) : Decidable (e.Over vs) :=
  inferInstanceAs (Decidable (∀ term ∈ e.factors, term.1.var ∈ vs))

instance (e : Expression) : Decidable e.Fits :=
  inferInstanceAs (Decidable (∀ term ∈ e.factors, term.2.Fits))

theorem Number.succeeds_toFloat {x : Number} : Succeeds x.toFloat ↔ x.Fits := by
  rw [toFloat_eq]
  split_ifs with h <;> simp [h]

namespace Translation

variable {m : Model} {values : Overrides} {cs : Store Constraint} {s : Store Interval}
  {p : Problem} {map : IndexMap}

/-! ### Columns -/

theorem succeeds_readSpan {b : Interval} : Succeeds (readSpan b) ↔ b.Admissible := by
  have hshape : ∀ lower upper, Succeeds (BoundType.classify lower upper >>= fun t =>
      (pure (t, lower, upper) : Except Fault _)) ↔ BoundType.Admissible lower upper := by
    intro lower upper
    rw [succeeds_bind_pure, BoundType.succeeds_classify]
  unfold readSpan Interval.Admissible
  simp only [succeeds_bind (x := Scalar.toFloat _), hshape, exists_and_left]

instance (b : Interval) : Decidable b.Admissible := decidable_of_iff _ succeeds_readSpan

theorem succeeds_limitName {name : String} :
    Succeeds (Problem.limitName name) ↔ name.length ≤ Problem.nameLimit := by
  unfold Problem.limitName
  split_ifs with h <;> simp [h]

theorem succeeds_putColumn {pm : Problem × IndexMap} {v : Variable} :
    Succeeds (putColumn s pm v) ↔
      (s.get v.cell).Admissible ∧ v.name.length ≤ Problem.nameLimit ∧ v ∉ pm.2.decisions := by
  obtain ⟨p, map⟩ := pm
  unfold putColumn
  rw [← succeeds_readSpan, ← succeeds_limitName]
  refine succeeds_bind_of_const fun span _ => ?_
  refine succeeds_bind_of_const fun name _ => ?_
  rw [succeeds_bind_pure]
  simp [Succeeds, addVariable_eq_ok]

theorem decisions_of_putColumn {pm pm' : Problem × IndexMap} {v : Variable}
    (h : putColumn s pm v = .ok pm') : pm'.2.decisions = pm.2.decisions ++ [v] := by
  obtain ⟨p, map⟩ := pm
  obtain ⟨span, -, h⟩ := bind_eq_ok.1 h
  obtain ⟨name, -, h⟩ := bind_eq_ok.1 h
  obtain ⟨map', hadd, h⟩ := bind_eq_ok.1 h
  cases h
  rw [(addVariable_eq_ok.1 hadd).2]

/-- **Different variables get columns when their bounds and names can be those of columns.** -/
theorem succeeds_columns (hnodup : m.decisions.Nodup) : Succeeds (columns m s p) ↔
    ∀ v ∈ m.decisions, (s.get v.cell).Admissible ∧ v.name.length ≤ Problem.nameLimit := by
  unfold columns
  rw [succeeds_foldlM (I := fun seen pm => pm.2.decisions = seen)
    (P := fun seen v =>
      (s.get v.cell).Admissible ∧ v.name.length ≤ Problem.nameLimit ∧ v ∉ seen)
    (fun seen pm v hseen => by rw [succeeds_putColumn, hseen])
    (fun seen pm v pm' hseen h => by rw [decisions_of_putColumn h, hseen]) rfl]
  rw [List.forall_mem_iff_getElem]
  refine forall₂_congr fun i hi => ?_
  simp [nodup_iff_notMem_take.1 hnodup i hi]

/-! ### The objective -/

theorem succeeds_columnOf {v : Variable} : Succeeds (map.columnOf v) ↔ v ∈ map.decisions := by
  unfold IndexMap.columnOf
  split
  · next j hj => simpa using (IndexMap.place?_eq_none_iff v map.decisions).not.1 (by simp [hj])
  · next hj => simpa using (IndexMap.place?_eq_none_iff v map.decisions).1 hj

theorem succeeds_weights {e : Expression} :
    Succeeds (weights map e) ↔ e.Over map.decisions ∧ e.Fits := by
  unfold weights
  rw [Expression.Over, Expression.Fits, ← forall₂_and, List.forall_mem_iff_getElem]
  refine succeeds_foldlM (I := fun _ _ => True)
    (P := fun _ (term : Power × Number) => term.1.var ∈ map.decisions ∧ term.2.Fits) ?_
    (fun _ _ _ _ _ _ => trivial) trivial
  rintro - xs ⟨power, factor⟩ -
  rw [← succeeds_columnOf, ← Number.succeeds_toFloat]
  exact succeeds_bind_of_const fun j _ => succeeds_bind_pure

theorem succeeds_objective : Succeeds (objective m map p) ↔ ∀ o ∈ m.objectives.head?,
    (o.expression.Over map.decisions ∧ o.expression.Fits) ∧
      o.name.length ≤ Problem.nameLimit := by
  unfold objective
  split
  · next o ho =>
    rw [ho]
    simp only [Option.mem_def, Option.some.injEq, forall_eq']
    rw [← succeeds_weights, ← succeeds_limitName, putObjective]
    exact succeeds_bind_of_const fun ws _ => succeeds_bind_pure
  · next ho => simp [ho]

/-! ### Rows -/

theorem succeeds_rowEntries {i : Nat} {e : Expression} :
    Succeeds (rowEntries map i e) ↔ e.Over map.decisions ∧ e.Fits := by
  unfold rowEntries
  rw [succeeds_mapM, Expression.Over, Expression.Fits, ← forall₂_and]
  refine forall₂_congr fun term _ => ?_
  rw [← succeeds_columnOf, ← Number.succeeds_toFloat]
  exact succeeds_bind_of_const fun j _ => succeeds_bind_pure

theorem succeeds_addConstraint (r : Ref Constraint) (name : Option String) :
    Succeeds (map.addConstraint r name) ↔ r ∉ map.constraints := by
  simp [Succeeds, addConstraint_eq_ok]

/-- What a constraint needs for row `i`, the variables that have columns being given. -/
@[mk_iff]
structure RowReady (vs : List Variable) (c : Constraint) (i : Nat) : Prop where
  bounds : c.Admissible
  name : (rowName c.name i).length ≤ Problem.nameLimit
  terms : c.expression.Over vs
  fits : c.expression.Fits

theorem succeeds_putRow {st : RowState} {r : Ref Constraint} : Succeeds (putRow cs st r) ↔
    RowReady st.indexMap.decisions (cs.get r) (st.indexMap.rowCount + 1) ∧
      r ∉ st.indexMap.constraints := by
  have hparts : Succeeds (putRow cs st r) ↔ (cs.get r).Admissible ∧
      (rowName (cs.get r).name (st.indexMap.rowCount + 1)).length ≤ Problem.nameLimit ∧
      r ∉ st.indexMap.constraints ∧ (cs.get r).expression.Over st.indexMap.decisions ∧
      (cs.get r).expression.Fits := by
    unfold putRow Constraint.Admissible
    rw [← BoundType.succeeds_classify, ← succeeds_limitName,
      ← succeeds_addConstraint r (cs.get r).name]
    refine succeeds_bind_of_const fun t _ => ?_
    refine succeeds_bind_of_const fun name _ => ?_
    refine succeeds_bind_of_const fun map hmap => ?_
    rw [succeeds_bind_pure, succeeds_rowEntries, (addConstraint_eq_ok.1 hmap).2]
  rw [hparts, rowReady_iff]
  tauto

theorem indexMap_of_putRow {st st' : RowState} {r : Ref Constraint}
    (h : putRow cs st r = .ok st') :
    st'.indexMap = { st.indexMap with constraints := st.indexMap.constraints ++ [r] } := by
  obtain ⟨t, -, h⟩ := bind_eq_ok.1 h
  obtain ⟨name, -, h⟩ := bind_eq_ok.1 h
  obtain ⟨map, hadd, h⟩ := bind_eq_ok.1 h
  obtain ⟨entries, -, h⟩ := bind_eq_ok.1 h
  cases h
  exact (addConstraint_eq_ok.1 hadd).2

/-- **The constraints get rows when each of them can have its row and none is there twice.** -/
theorem succeeds_rows (hmap : map.constraints = []) : Succeeds (rows m cs map p) ↔
    (∀ i (hi : i < m.constraints.length),
      RowReady map.decisions (cs.get m.constraints[i]) (i + 1)) ∧ m.constraints.Nodup := by
  rw [nodup_iff_notMem_take, ← forall₂_and]
  unfold rows
  rw [succeeds_foldlM
    (I := fun seen st => st.indexMap.decisions = map.decisions ∧ st.indexMap.constraints = seen)
    (P := fun seen r =>
      RowReady map.decisions (cs.get r) (seen.length + 1) ∧ r ∉ seen) ?_ ?_ ⟨rfl, hmap⟩]
  · refine forall₂_congr fun i hi => ?_
    simp [Nat.min_eq_left hi.le]
  · rintro seen st r ⟨hdecisions, hseen⟩
    rw [succeeds_putRow, hdecisions, IndexMap.rowCount, hseen]
  · rintro seen st r st' ⟨hdecisions, hseen⟩ h
    rw [indexMap_of_putRow h]
    exact ⟨hdecisions, by rw [hseen]⟩

/-! ### The check -/

/-- No problem expresses the model: it has several objectives, or a term of an objective or a
constraint has an exponent other than one. -/
def Inexpressible (m : Model) (cs : Store Constraint) : Prop :=
  1 < m.objectives.length ∨
    (∃ o ∈ m.objectives, ∃ t ∈ o.expression.terms, t.power.isLinear = false) ∨
    ∃ r ∈ m.constraints, ∃ t ∈ (cs.get r).expression.terms, t.power.isLinear = false

theorem isLinear_eq_true_iff {e : Expression} :
    e.isLinear = true ↔ ¬∃ t ∈ e.terms, t.power.isLinear = false := by
  simp [Expression.isLinear, Expression.terms]

/-- **The check lets through what problems can express.** -/
theorem succeeds_checkModel : Succeeds (checkModel m cs) ↔ ¬Inexpressible m cs := by
  have hunit : Succeeds (checkModel m cs) ↔ checkModel m cs = .ok () :=
    ⟨fun ⟨_, h⟩ => h, fun h => ⟨(), h⟩⟩
  rw [hunit, checkModel_eq_ok_iff, Inexpressible]
  simp only [isLinear_eq_true_iff, ← Nat.not_lt, not_or, not_exists, not_and]

/-- What the check refuses it refuses for the sort of reasons it has. -/
theorem refused_checkModel :
    (∃ fault, checkModel m cs = .error fault ∧ fault.category = .value) ↔ Inexpressible m cs := by
  rw [← not_iff_not, ← succeeds_checkModel]
  cases h : checkModel m cs with
  | ok => simp
  | error fault => simpa using category_of_checkModel h

/-! ### The whole -/

/-- What can be read off the parts of a model and the overrides one by one: the values of variables
are numbers, bounds can be those of columns and rows, names are not too long, and no expression has
a variable that is not in the model. -/
@[mk_iff]
structure Legible (m : Model) (values : Overrides) (cs : Store Constraint) (s : Store Interval) :
    Prop where
  overrides : values.AllRead m.decisions
  bounds : ∀ v ∈ m.decisions, (values.effective s v).Admissible
  variableNames : ∀ v ∈ m.decisions, v.name.length ≤ Problem.nameLimit
  objectiveName : ∀ o ∈ m.objectives.head?, o.name.length ≤ Problem.nameLimit
  rowNames : ∀ i (hi : i < m.constraints.length),
    (rowName (cs.get m.constraints[i]).name (i + 1)).length ≤ Problem.nameLimit
  objectiveTerms : ∀ o ∈ m.objectives.head?, o.expression.Over m.decisions
  constraintTerms : ∀ r ∈ m.constraints, (cs.get r).expression.Over m.decisions
  rows : ∀ r ∈ m.constraints, (cs.get r).Admissible

/-- What a translation asks for: beside all that, no constraint is in the model twice and no factor
is an integer beyond the floats. -/
@[mk_iff]
structure Accepted (m : Model) (values : Overrides) (cs : Store Constraint) (s : Store Interval) :
    Prop extends Legible m values cs s where
  once : m.constraints.Nodup
  objectiveFits : ∀ o ∈ m.objectives.head?, o.expression.Fits
  constraintsFit : ∀ r ∈ m.constraints, (cs.get r).expression.Fits

instance (vs : List Variable) : Decidable (values.AllRead vs) :=
  inferInstanceAs (Decidable (∀ v ∈ vs, ∀ x ∈ values.lookup v.name, Succeeds x.toFloat))

instance : Decidable (Legible m values cs s) := decidable_of_iff _ (legible_iff ..).symm

instance : Decidable (Accepted m values cs s) := decidable_of_iff _ (accepted_iff ..).symm

theorem succeeds_underway {α : Type} {vs : List Variable} {f : Store Interval → Except Fault α} :
    Succeeds (Overrides.underway values vs s f) ↔
      values.AllRead vs ∧ Succeeds (f (Overrides.fix values vs s).2.1) := by
  unfold Overrides.underway
  cases hf : (Overrides.fix values vs s).2.2 with
  | none =>
    refine (and_iff_right fun v hv x hx => ?_).symm
    exact Overrides.exists_toFloat_of_fix hf hv hx
  | some fault =>
    refine iff_of_false (not_succeeds_error fault) fun h => ?_
    rw [Overrides.fix_accepts h.1] at hf
    cases hf

/-- The objective and the rows of a model whose columns are set up. -/
theorem succeeds_complete {pm : Problem × IndexMap} (hmap : pm.2.constraints = []) :
    Succeeds (complete m cs pm) ↔
      (∀ o ∈ m.objectives.head?, (o.expression.Over pm.2.decisions ∧ o.expression.Fits) ∧
        o.name.length ≤ Problem.nameLimit) ∧
      (∀ i (hi : i < m.constraints.length),
        RowReady pm.2.decisions (cs.get m.constraints[i]) (i + 1)) ∧ m.constraints.Nodup := by
  unfold complete
  rw [← succeeds_objective]
  refine succeeds_bind_of_const fun p _ => ?_
  rw [succeeds_bind_pure, succeeds_rows hmap]

theorem indexMap_of_underway {name : Option String} {pm : Problem × IndexMap}
    (h : Overrides.underway values m.decisions s (fun s => columns m s { name }) = .ok pm) :
    pm.2 = { decisions := m.decisions } := by
  unfold Overrides.underway at h
  split at h
  · cases h
  · obtain ⟨-, -, -, -, hmap, -⟩ := columns_eq_ok rfl h
    exact hmap

theorem succeeds_computed {name : Option String} (hnodup : m.decisions.Nodup)
    (hcells : (m.decisions.map (·.cell)).Nodup)
    (hs : ∀ v ∈ m.decisions, (s.get? v.cell).isSome) :
    Succeeds (computed m values cs s { name }) ↔ Accepted m values cs s := by
  have heffective : values.AllRead m.decisions → ∀ v ∈ m.decisions,
      (values.fix m.decisions s).2.1.get v.cell = values.effective s v :=
    fun hread v hv => Overrides.get_fix hcells hs (Overrides.fix_accepts hread s) hv
  constructor
  · intro h
    obtain ⟨pm, hpm, hcomplete⟩ := succeeds_bind.1 h
    obtain ⟨hread, hcolumns⟩ := succeeds_underway.1 ⟨pm, hpm⟩
    rw [succeeds_columns hnodup] at hcolumns
    rw [succeeds_complete (by rw [indexMap_of_underway hpm]), indexMap_of_underway hpm] at hcomplete
    obtain ⟨hobjective, hrows, honce⟩ := hcomplete
    exact {
      overrides := hread
      bounds := fun v hv => heffective hread v hv ▸ (hcolumns v hv).1
      variableNames := fun v hv => (hcolumns v hv).2
      objectiveName := fun o ho => (hobjective o ho).2
      rowNames := fun i hi => (hrows i hi).name
      objectiveTerms := fun o ho => (hobjective o ho).1.1
      constraintTerms := List.forall_mem_iff_getElem.2 fun i hi => (hrows i hi).terms
      rows := List.forall_mem_iff_getElem.2 fun i hi => (hrows i hi).bounds
      once := honce
      objectiveFits := fun o ho => (hobjective o ho).1.2
      constraintsFit := List.forall_mem_iff_getElem.2 fun i hi => (hrows i hi).fits }
  · intro h
    have hcolumns : Succeeds
        (Overrides.underway values m.decisions s fun s => columns m s { name }) := by
      rw [succeeds_underway, succeeds_columns hnodup]
      refine ⟨h.overrides, fun v hv => ⟨?_, h.variableNames v hv⟩⟩
      rw [heffective h.overrides v hv]
      exact h.bounds v hv
    obtain ⟨pm, hpm⟩ := hcolumns
    refine succeeds_bind.2 ⟨pm, hpm, ?_⟩
    rw [succeeds_complete (by rw [indexMap_of_underway hpm]), indexMap_of_underway hpm]
    refine ⟨fun o ho => ⟨⟨h.objectiveTerms o ho, h.objectiveFits o ho⟩, h.objectiveName o ho⟩,
      fun i hi => ?_, h.once⟩
    have hmem := List.getElem_mem hi
    exact ⟨h.rows _ hmem, h.rowNames i hi, h.constraintTerms _ hmem, h.constraintsFit _ hmem⟩

/-- A translation of a built model is not refused when it has what it asks for. -/
theorem succeeds_translate {w : Workspace} {vs : List Variable} (hbuilt : Modeling.Built false w vs)
    (r : Ref Model) (values : Overrides) (name : Option String) :
    Succeeds ((translate (w.models.get r) values { name }).run w).1 ↔
      Accepted (w.models.get r) values w.constraints w.intervals := by
  have hsound := hbuilt.sound
  have hnodup := hsound.nodup_decisions r
  have hcells := hsound.nodup_cells hnodup
  rw [(translate_ends values hcells w { name }).outcome]
  exact succeeds_computed hnodup hcells fun v hv =>
    hsound.cells v ((hsound.models r).decisions v hv)

/-- **A model is translated exactly when it has what a translation asks for**, and the check refuses
exactly what no problem expresses. -/
theorem translate_accepts {w : Workspace} {vs : List Variable} (hbuilt : Modeling.Built false w vs)
    (r : Ref Model) (values : Overrides) (name : Option String) :
    ((∃ fault, checkModel (w.models.get r) w.constraints = .error fault ∧
        fault.category = .value) ↔ Inexpressible (w.models.get r) w.constraints) ∧
    (Succeeds (checkModel (w.models.get r) w.constraints) ↔
      ¬Inexpressible (w.models.get r) w.constraints) ∧
    (Succeeds ((translate (w.models.get r) values { name }).run w).1 ↔
      Accepted (w.models.get r) values w.constraints w.intervals) :=
  ⟨refused_checkModel, succeeds_checkModel, succeeds_translate hbuilt r values name⟩

/-- The sample is translated with its integer variable fixed. -/
theorem sample_accepted :
    Accepted (Modeling.sample.models.get ⟨0⟩) [("n", .integer 1)] Modeling.sample.constraints
      Modeling.sample.intervals ∧
    Succeeds ((translate (Modeling.sample.models.get ⟨0⟩) [("n", .integer 1)]
      { name := some "sample" }).run Modeling.sample).1 := by
  have haccepted : Accepted (Modeling.sample.models.get ⟨0⟩) [("n", .integer 1)]
      Modeling.sample.constraints Modeling.sample.intervals := by decide
  exact ⟨haccepted, (translate_accepts Modeling.sample_built ⟨0⟩ _ _).2.2.2 haccepted⟩

/-- The sample with its constraint added once more. -/
def repeated : Workspace := (Modeling.addConstraint ⟨0⟩ ⟨0⟩ none).after Modeling.sample

theorem repeated_built : Modeling.Built false repeated Modeling.sampleVariables :=
  .step Modeling.sample_built (.addConstraint _ _ _)

/-- The sample with a constraint whose factor is an integer beyond the floats. -/
def oversized : Workspace :=
  let x : Variable := ⟨⟨1⟩, "x", .continuous⟩
  let e := .ofFactors [(.first x, .integer (10 ^ 200 * 10 ^ 200))] 0.0
  (Modeling.addConstraint ⟨0⟩ ⟨1⟩ none).after
    ((Modeling.newConstraint ⟨e, none, Decimal.negativeInfinity, 1.0⟩).after Modeling.sample)

theorem oversized_built : Modeling.Built false oversized Modeling.sampleVariables :=
  .step (.step Modeling.sample_built (.newConstraint (.ofFactors _ _))) (.addConstraint _ _ _)

/-- Legible models are refused when a constraint is there twice, and when a factor is an integer
beyond the floats. -/
theorem legible_refused :
    (Modeling.Built false repeated Modeling.sampleVariables ∧
      Legible (repeated.models.get ⟨0⟩) [] repeated.constraints repeated.intervals ∧
      ¬Succeeds ((translate (repeated.models.get ⟨0⟩) [] { name := some "sample" }).run
        repeated).1) ∧
    Modeling.Built false oversized Modeling.sampleVariables ∧
      Legible (oversized.models.get ⟨0⟩) [] oversized.constraints oversized.intervals ∧
      ¬Succeeds ((translate (oversized.models.get ⟨0⟩) [] { name := some "sample" }).run
        oversized).1 := by
  refine ⟨⟨repeated_built, by decide, ?_⟩, oversized_built, by decide, ?_⟩
  · rw [succeeds_translate repeated_built]
    decide
  · rw [succeeds_translate oversized_built]
    decide +kernel

end Translation

end Optimization
