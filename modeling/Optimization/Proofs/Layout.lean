import Optimization.Problem.Lifetime
import Optimization.Proofs.Translating
import Mathlib.Data.List.Forall2

/-!
# Columns and rows of a translated model

What a translation puts into a problem, column by column and row by row, apart from the order in
which the parts of the problem were set.

* `IsColumn`, `IsRow`, `IsTerm` : the column of a variable, the row of a constraint, and the place
  and the float of a term;
* `columns_eq_ok`, `weights_eq_ok`, `rows_eq_ok` : what the loops of a translation come to;
* `computed_eq_ok` : the layout of the whole;
* `loadArrays_run` : the matrix arrives in the problem entry by entry.
-/

namespace Optimization.Translation
open Problem (keptName)

/-! ### Lists -/

theorem changeAt_append {α : Type} (f : α → α) (xs : List α) (y : α) (ys : List α) :
    Problem.changeAt f (xs ++ y :: ys) (xs.length + 1) = xs ++ f y :: ys := by
  rw [Problem.changeAt, if_neg (by omega), Nat.add_sub_cancel]
  induction xs with
  | nil => rfl
  | cons x xs ih => simp [ih]

theorem mapM_eq_ok {α β : Type} {f : α → Except Fault β} {xs : List α} {ys : List β}
    (h : xs.mapM f = .ok ys) : List.Forall₂ (fun x y => f x = .ok y) xs ys := by
  induction xs generalizing ys with
  | nil =>
    cases h
    exact .nil
  | cons x xs ih =>
    rw [List.mapM_cons, bind_eq_ok] at h
    obtain ⟨y, hy, h⟩ := h
    obtain ⟨rest, hrest, h⟩ := bind_eq_ok.1 h
    cases h
    exact .cons hy (ih hrest)

theorem exists_left_of_forall₂ {α β : Type} {R : α → β → Prop} {xs : List α} {ys : List β}
    (h : List.Forall₂ R xs ys) {y : β} (hy : y ∈ ys) : ∃ x ∈ xs, R x y := by
  obtain ⟨k, hk, rfl⟩ := List.getElem_of_mem hy
  exact ⟨_, List.getElem_mem (h.length_eq ▸ hk), h.get (h.length_eq ▸ hk) hk⟩

theorem exists_right_of_forall₂ {α β : Type} {R : α → β → Prop} {xs : List α} {ys : List β}
    (h : List.Forall₂ R xs ys) {x : α} (hx : x ∈ xs) : ∃ y ∈ ys, R x y :=
  exists_left_of_forall₂ h.flip hx

/-- Different images stay different along a relation that tells them apart. -/
theorem nodup_map_of_forall₂ {α β κ ι : Type} {R : α → β → Prop} {f : α → κ} {g : β → ι}
    {xs : List α} {ys : List β} (h : List.Forall₂ R xs ys) (hnodup : (xs.map f).Nodup)
    (hinj : ∀ {a b a' b'}, R a b → R a' b' → g b = g b' → f a = f a') : (ys.map g).Nodup := by
  induction h with
  | nil => exact List.nodup_nil
  | @cons a b xs ys hab h ih =>
    rw [List.map_cons, List.nodup_cons] at hnodup ⊢
    refine ⟨fun hmem => hnodup.1 ?_, ih hnodup.2⟩
    obtain ⟨b', hb', he⟩ := List.mem_map.1 hmem
    obtain ⟨a', ha', hab'⟩ := exists_left_of_forall₂ h hb'
    rw [hinj hab hab' he.symm]
    exact List.mem_map_of_mem ha'

theorem limitName_eq_ok {s t : String} (h : Problem.limitName s = .ok t) : t = s := by
  unfold Problem.limitName at h
  split_ifs at h
  cases h
  rfl

theorem limitName_of_le {s : String} (h : s.length ≤ Problem.nameLimit) :
    Problem.limitName s = .ok s :=
  if_pos h

section

variable {m : Model} {values : Overrides} {cs : Store Constraint} {s : Store Interval}
  {p p' : Problem} {map map' : IndexMap}

/-! ### Numbering -/

/-- A variable gets the next column if it has none. -/
theorem addVariable_eq_ok {v : Variable} : map.addVariable v = .ok map' ↔
    v ∉ map.decisions ∧ map' = { map with decisions := map.decisions ++ [v] } := by
  unfold IndexMap.addVariable
  split_ifs with h
  · exact iff_of_false nofun fun hnew => hnew.1 h
  · exact ⟨fun hok => ⟨h, (Except.ok.inj hok).symm⟩, fun hnew => congrArg Except.ok hnew.2.symm⟩

/-- A constraint gets the next row if it has none. -/
theorem addConstraint_eq_ok {r : Ref Constraint} {name : Option String} :
    map.addConstraint r name = .ok map' ↔
      r ∉ map.constraints ∧ map' = { map with constraints := map.constraints ++ [r] } := by
  unfold IndexMap.addConstraint
  split_ifs with h
  · exact iff_of_false nofun fun hnew => hnew.1 h
  · exact ⟨fun hok => ⟨h, (Except.ok.inj hok).symm⟩, fun hnew => congrArg Except.ok hnew.2.symm⟩

/-! ### Columns -/

/-- The column of a variable, whatever its weight. -/
def IsColumn (s : Store Interval) (v : Variable) (c : Column) : Prop :=
  ∃ t lower upper weight, readSpan (s.get v.cell) = .ok (t, lower, upper) ∧
    c = Column.ofKind ⟨keptName v.name, .keep t lower upper, false, weight⟩
      (columnKind v.domain (s.get v.cell))

theorem setColumn_append {cols rest : List Column} (c : Column) (name : String) (t : BoundType)
    (lower upper : Float) (kind : ColumnKind) (hp : p.columns = cols ++ c :: rest) :
    p.setColumn (cols.length + 1) name t lower upper kind =
      { p with
        columns := cols ++
          Column.ofKind { c with name := keptName name, span := .keep t lower upper } kind ::
            rest } := by
  simp only [Problem.setColumn, Problem.nameColumn, Problem.boundColumn, Problem.typeColumn,
    Problem.changeColumn, hp, changeAt_append]

/-- The next column is that of the variable, which must be new. -/
theorem putColumn_eq_ok {cols rest : List Column} {v : Variable}
    (hp : p.columns = cols ++ {} :: rest) (hmap : map.columnCount = cols.length)
    (h : putColumn s (p, map) v = .ok (p', map')) :
    ∃ c, IsColumn s v c ∧ c.weight = 0.0 ∧ p' = { p with columns := cols ++ c :: rest } ∧
      v ∉ map.decisions ∧ map' = { map with decisions := map.decisions ++ [v] } := by
  obtain ⟨⟨t, lower, upper⟩, hspan, h⟩ := bind_eq_ok.1 h
  obtain ⟨name, hname, h⟩ := bind_eq_ok.1 h
  obtain ⟨map'', hadd, h⟩ := bind_eq_ok.1 h
  cases limitName_eq_ok hname
  cases h
  obtain ⟨hv, rfl⟩ := addVariable_eq_ok.1 hadd
  refine ⟨_, ⟨t, lower, upper, 0.0, hspan, rfl⟩, ?_, ?_, hv, rfl⟩
  · cases columnKind v.domain (s.get v.cell) <;> rfl
  · rw [hmap]
    exact setColumn_append _ _ _ _ _ _ hp

theorem putColumns_eq_ok {vs : List Variable} {cols : List Column}
    (hp : p.columns = cols ++ List.replicate vs.length ({} : Column))
    (hmap : map.columnCount = cols.length) (hnodup : map.decisions.Nodup)
    (h : vs.foldlM (putColumn s) (p, map) = .ok (p', map')) :
    ∃ cols', List.Forall₂ (IsColumn s) vs cols' ∧ (∀ c ∈ cols', c.weight = 0.0) ∧
      p' = { p with columns := cols ++ cols' } ∧
      map' = { map with decisions := map.decisions ++ vs } ∧ (map.decisions ++ vs).Nodup := by
  induction vs generalizing p map cols with
  | nil =>
    cases h
    exact ⟨[], .nil, by simp, by rw [← show p'.columns = cols ++ [] from hp], by simp,
      by simpa using hnodup⟩
  | cons v vs ih =>
    obtain ⟨⟨p₁, map₁⟩, h₁, h⟩ := bind_eq_ok.1 h
    obtain ⟨c, hc, hweight, rfl, hv, rfl⟩ := putColumn_eq_ok hp hmap h₁
    obtain ⟨cols', hcols, hweights, hp', hmap', hnodup'⟩ :=
      ih (show _ = (cols ++ [c]) ++ List.replicate vs.length ({} : Column) by simp)
        (by simpa [IndexMap.columnCount] using hmap)
        (List.nodup_append.2 ⟨hnodup, List.pairwise_singleton _ v, by grind⟩) h
    refine ⟨c :: cols', .cons hc hcols, ?_, by simpa using hp', by simpa using hmap',
      by simpa using hnodup'⟩
    simpa [hweight] using hweights

/-- **Each variable has a column, and no variable occurs twice.** -/
theorem columns_eq_ok (hp : p.columns = []) (h : columns m s p = .ok (p', map)) :
    ∃ cols, List.Forall₂ (IsColumn s) m.decisions cols ∧ (∀ c ∈ cols, c.weight = 0.0) ∧
      p' = { p with columns := cols } ∧ map = { decisions := m.decisions } ∧
      m.decisions.Nodup := by
  obtain ⟨cols, hcols, hweights, hp', hmap, hnodup⟩ :=
    putColumns_eq_ok (show _ = [] ++ List.replicate m.decisions.length ({} : Column) by
      simp [Problem.addColumns, hp]) rfl List.nodup_nil h
  exact ⟨cols, hcols, hweights, hp', hmap, hnodup⟩

/-! ### Terms -/

/-- The column and the float of a term. -/
def IsTerm (vs : List Variable) (term : Power × Number) (j : Nat) (x : Float) : Prop :=
  IndexMap.place? term.1.var vs = some j ∧ term.2.toFloat = .ok x

theorem columnOf_eq_ok {v : Variable} {j : Nat} (h : map.columnOf v = .ok j) :
    IndexMap.place? v map.decisions = some j := by
  unfold IndexMap.columnOf at h
  split at h
  · next hj =>
    cases h
    exact hj
  · cases h

/-- A place in a list is at most its length. -/
theorem place?_le {vs : List Variable} {v : Variable} {j : Nat}
    (h : IndexMap.place? v vs = some j) : 1 ≤ j ∧ j ≤ vs.length := by
  obtain ⟨hone, hget⟩ := IndexMap.getElem?_of_place? h
  obtain ⟨hlt, -⟩ := List.getElem?_eq_some_iff.1 hget
  omega

/-- Different variables have different places. -/
theorem place?_injective {vs : List Variable} {v u : Variable} {j : Nat}
    (hv : IndexMap.place? v vs = some j) (hu : IndexMap.place? u vs = some j) : v = u := by
  have := (IndexMap.getElem?_of_place? hv).2
  rw [(IndexMap.getElem?_of_place? hu).2, Option.some.injEq] at this
  exact this.symm

/-- The weight that a term gives to its column. -/
def IsWeight (vs : List Variable) (term : Power × Number) (weight : Nat × Float) : Prop :=
  ∃ x, IsTerm vs term weight.1 x ∧ weight.2 = 0.0 + x

theorem putWeights_eq_ok {terms : List (Power × Number)} {ws ws' : List (Nat × Float)}
    (hnodup : (terms.map (·.1.var)).Nodup)
    (hnew : ∀ term ∈ terms, ∀ j, IndexMap.place? term.1.var map.decisions = some j →
      ws.lookup j = none)
    (h : terms.foldlM (fun xs (p, x) => do
      let j ← map.columnOf p.var
      pure (Keyed.put j ((xs.lookup j).getD 0.0 + (← x.toFloat)) xs)) ws =
        (.ok ws' : Except Fault _)) :
    ∃ new, List.Forall₂ (IsWeight map.decisions) terms new ∧ ws' = ws ++ new := by
  induction terms generalizing ws with
  | nil =>
    cases h
    exact ⟨[], .nil, by simp⟩
  | cons term terms ih =>
    obtain ⟨ws₁, h₁, h⟩ := bind_eq_ok.1 h
    obtain ⟨j, hj, h₁⟩ := bind_eq_ok.1 h₁
    obtain ⟨x, hx, h₁⟩ := bind_eq_ok.1 h₁
    cases h₁
    have hj := columnOf_eq_ok hj
    have hj' := hnew term List.mem_cons_self j hj
    rw [List.map_cons, List.nodup_cons] at hnodup
    rw [hj', Keyed.put_of_lookup_eq_none _ hj'] at h
    obtain ⟨new, hterms, rfl⟩ := ih hnodup.2 (by
      -- another term has another variable, which has another column
      intro term' hmem k hk
      have hne : (k == j) = false := by
        rw [beq_eq_false_iff_ne]
        rintro rfl
        exact hnodup.1 (place?_injective hk hj ▸ List.mem_map_of_mem hmem)
      rw [List.lookup_append, hnew term' (List.mem_cons_of_mem _ hmem) k hk]
      simp [List.lookup_cons, hne]) h
    exact ⟨(j, 0.0 + x) :: new, .cons ⟨x, ⟨hj, hx⟩, rfl⟩ hterms, by simp⟩

/-- **Each term gives its factor to the column of its variable.** -/
theorem weights_eq_ok {e : Expression} {ws : List (Nat × Float)}
    (hnodup : (e.factors.map (·.1.var)).Nodup) (h : weights map e = .ok ws) :
    List.Forall₂ (IsWeight map.decisions) e.factors ws := by
  obtain ⟨new, hterms, rfl⟩ := putWeights_eq_ok hnodup (fun _ _ _ _ => rfl) h
  exact hterms

theorem rowEntries_eq_ok {i : Nat} {e : Expression} {es : List Entry}
    (h : rowEntries map i e = .ok es) :
    List.Forall₂ (fun term entry =>
      entry.row = i ∧ IsTerm map.decisions term entry.column entry.coefficient) e.factors es := by
  refine (mapM_eq_ok h).imp fun term entry ht => ?_
  obtain ⟨j, hj, ht⟩ := bind_eq_ok.1 ht
  obtain ⟨x, hx, ht⟩ := bind_eq_ok.1 ht
  cases ht
  exact ⟨rfl, columnOf_eq_ok hj, hx⟩

/-! ### Rows -/

/-- The row of a constraint before the matrix is loaded, and its entries of the matrix. -/
structure IsRow (cs : Store Constraint) (vs : List Variable) (r : Ref Constraint) (i : Nat)
    (row : Row) (es : List Entry) : Prop where
  span : ∃ t, BoundType.classify
      (foldConstant (cs.get r).lower (cs.get r).upper (cs.get r).expression.constant).1
      (foldConstant (cs.get r).lower (cs.get r).upper (cs.get r).expression.constant).2 = .ok t ∧
    row.span = .keep t
      (foldConstant (cs.get r).lower (cs.get r).upper (cs.get r).expression.constant).1
      (foldConstant (cs.get r).lower (cs.get r).upper (cs.get r).expression.constant).2
  name : row.name = keptName (rowName (cs.get r).name i)
  entries : row.entries = []
  terms : List.Forall₂
    (fun term entry => entry.row = i ∧ IsTerm vs term entry.column entry.coefficient)
    (cs.get r).expression.factors es

theorem setRow_append {rows rest : List Row} (row : Row) (name : String) (t : BoundType)
    (lower upper : Float) (hp : p.rows = rows ++ row :: rest) :
    p.setRow (rows.length + 1) name t lower upper =
      { p with
        rows := rows ++
          { row with name := keptName name, span := .keep t lower upper } :: rest } := by
  simp only [Problem.setRow, Problem.nameRow, Problem.boundRow, Problem.changeRow, hp,
    changeAt_append]

theorem foldl_push (es : List Entry) (matrix : Triplets) :
    (es.foldl Triplets.push matrix).entries = matrix.entries ++ es := by
  induction es generalizing matrix with
  | nil => simp
  | cons e es ih => simp [ih]

/-- The next row is that of the constraint. -/
theorem putRow_eq_ok {rows rest : List Row} {st st' : RowState} {r : Ref Constraint}
    (hp : st.problem.rows = rows ++ {} :: rest) (hmap : st.indexMap.rowCount = rows.length)
    (h : putRow cs st r = .ok st') :
    ∃ row es, IsRow cs st.indexMap.decisions r (rows.length + 1) row es ∧
      st'.problem = { st.problem with rows := rows ++ row :: rest } ∧
      st'.indexMap = { st.indexMap with constraints := st.indexMap.constraints ++ [r] } ∧
      st'.matrix.entries = st.matrix.entries ++ es := by
  unfold putRow at h
  rw [hmap] at h
  obtain ⟨t, ht, h⟩ := bind_eq_ok.1 h
  obtain ⟨name, hname, h⟩ := bind_eq_ok.1 h
  obtain ⟨map', hadd, h⟩ := bind_eq_ok.1 h
  obtain ⟨es, hes, h⟩ := bind_eq_ok.1 h
  cases limitName_eq_ok hname
  cases h
  obtain ⟨-, rfl⟩ := addConstraint_eq_ok.1 hadd
  refine ⟨⟨_, _, []⟩, es, ⟨⟨t, ht, rfl⟩, rfl, rfl, rowEntries_eq_ok hes⟩, ?_, rfl, foldl_push es _⟩
  exact setRow_append _ _ _ _ _ hp

theorem putRows_eq_ok {rs : List (Ref Constraint)} {rows : List Row} {st st' : RowState}
    (hp : st.problem.rows = rows ++ List.replicate rs.length ({} : Row))
    (hmap : st.indexMap.rowCount = rows.length) (h : rs.foldlM (putRow cs) st = .ok st') :
    ∃ built : List (Row × List Entry),
      List.Forall₂ (fun r row => IsRow cs st.indexMap.decisions r.1 r.2 row.1 row.2)
        (rs.zipIdx (rows.length + 1)) built ∧
      st'.problem = { st.problem with rows := rows ++ built.map Prod.fst } ∧
      st'.indexMap.decisions = st.indexMap.decisions ∧
      st'.matrix.entries = st.matrix.entries ++ built.flatMap Prod.snd := by
  induction rs generalizing st rows with
  | nil =>
    cases h
    exact ⟨[], .nil, by rw [List.map_nil, ← show st'.problem.rows = rows ++ [] from hp], rfl,
      by simp⟩
  | cons r rs ih =>
    obtain ⟨st₁, h₁, h⟩ := bind_eq_ok.1 h
    obtain ⟨row, es, hrow, hp₁, hmap₁, hm₁⟩ := putRow_eq_ok hp hmap h₁
    obtain ⟨built, hrows, hp', hmap', hm'⟩ :=
      ih (show _ = (rows ++ [row]) ++ List.replicate rs.length ({} : Row) by simp [hp₁])
        (by simpa [hmap₁, IndexMap.rowCount] using hmap) h
    refine ⟨(row, es) :: built, .cons hrow ?_, ?_, ?_, ?_⟩
    · rw [hmap₁] at hrows
      simpa using hrows
    · rw [hp', hp₁]
      simp
    · rw [hmap', hmap₁]
    · rw [hm', hm₁]
      simp

/-- **Each constraint has a row, and its terms are that row of the matrix.** -/
theorem rows_eq_ok {st : RowState} (hp : p.rows = []) (hmap : map.constraints = [])
    (h : rows m cs map p = .ok st) :
    ∃ built : List (Row × List Entry),
      List.Forall₂ (fun r row => IsRow cs map.decisions r.1 r.2 row.1 row.2)
        (m.constraints.zipIdx 1) built ∧
      st.problem = { p with rows := built.map Prod.fst } ∧
      st.indexMap.decisions = map.decisions ∧ st.matrix.entries = built.flatMap Prod.snd := by
  obtain ⟨built, hrows, hp', hmap', hm'⟩ := putRows_eq_ok
    (show _ = [] ++ List.replicate m.constraints.length ({} : Row) by simp [Problem.addRows, hp])
    (by simp [IndexMap.rowCount, hmap]) h
  exact ⟨built, hrows, hp', hmap', hm'⟩

/-! ### The objective -/

theorem IsColumn.weight {v : Variable} {c : Column} (h : IsColumn s v c) (x : Float) :
    IsColumn s v { c with weight := x } := by
  obtain ⟨t, lower, upper, weight, hspan, rfl⟩ := h
  refine ⟨t, lower, upper, x, hspan, ?_⟩
  cases columnKind v.domain (s.get v.cell) <;> rfl

theorem forall₂_changeAt {α β : Type} {R : α → β → Prop} {f : β → β}
    (hf : ∀ a b, R a b → R a (f b)) {xs : List α} {ys : List β} (h : List.Forall₂ R xs ys)
    (j : Nat) :
    List.Forall₂ R xs (Problem.changeAt f ys j) := by
  unfold Problem.changeAt
  split_ifs
  · exact h
  · generalize j - 1 = k
    induction h generalizing k with
    | nil => simp
    | cons hab h ih =>
      cases k with
      | zero => exact .cons (hf _ _ hab) h
      | succ k => exact .cons hab (ih k)

/-- Weights change no row, and nothing else about columns. -/
theorem setWeights_keeps {vs : List Variable} (hcols : List.Forall₂ (IsColumn s) vs p.columns)
    (ws : List (Nat × Float)) :
    List.Forall₂ (IsColumn s) vs (ws.foldl (fun p (j, x) => p.setWeight j x) p).columns ∧
      (ws.foldl (fun p (j, x) => p.setWeight j x) p).rows = p.rows := by
  induction ws generalizing p with
  | nil => exact ⟨hcols, rfl⟩
  | cons w ws ih =>
    obtain ⟨j, x⟩ := w
    have hstep : List.Forall₂ (IsColumn s) vs (p.setWeight j x).columns ∧
        (p.setWeight j x).rows = p.rows := by
      unfold Problem.setWeight
      split_ifs
      · exact ⟨hcols, rfl⟩
      · exact ⟨forall₂_changeAt (fun _ _ h => h.weight x) hcols j, rfl⟩
    obtain ⟨hcols', hrows⟩ := ih hstep.1
    exact ⟨hcols', hrows.trans hstep.2⟩

theorem objective_keeps {vs : List Variable} (hcols : List.Forall₂ (IsColumn s) vs p.columns)
    (h : objective m map p = .ok p') :
    List.Forall₂ (IsColumn s) vs p'.columns ∧ p'.rows = p.rows := by
  unfold objective at h
  split at h
  · obtain ⟨ws, -, h⟩ := bind_eq_ok.1 h
    obtain ⟨name, -, h⟩ := bind_eq_ok.1 h
    cases h
    exact setWeights_keeps hcols ws
  · cases h
    exact ⟨hcols, rfl⟩

/-! ### The whole -/

/-- The layout of a translated model, `s` being the bounds while overrides last. -/
structure IsTranslation (m : Model) (cs : Store Constraint) (s : Store Interval) (p : Problem)
    (t : Translation) : Prop where
  nodup : m.decisions.Nodup
  decisions : t.indexMap.decisions = m.decisions
  mixedInteger : t.mixedInteger = m.isMixedInteger
  columns : List.Forall₂ (IsColumn s) m.decisions p.columns
  rows : ∃ built : List (Row × List Entry),
    List.Forall₂ (fun r row => IsRow cs m.decisions r.1 r.2 row.1 row.2) (m.constraints.zipIdx 1)
      built ∧
    p.rows = built.map Prod.fst ∧ t.matrix.entries = built.flatMap Prod.snd
  objective : ∃ name cols p', cols.length = m.decisions.length ∧
    (∀ c ∈ cols, c.weight = 0.0) ∧
    objective m { decisions := m.decisions } { name, columns := cols } = .ok p' ∧
    p = { p' with rows := p.rows }

/-- **A translation that is done has laid out all parts of the model.** -/
theorem computed_eq_ok {name : Option String} {t : Translation}
    (h : computed m values cs s { name } = .ok (p, t)) :
    (Overrides.fix values m.decisions s).2.2 = none ∧
      IsTranslation m cs (Overrides.fix values m.decisions s).2.1 p t := by
  obtain ⟨⟨p₁, map⟩, hcolumns, h⟩ := bind_eq_ok.1 h
  obtain ⟨p₂, hobjective, h⟩ := bind_eq_ok.1 h
  obtain ⟨st, hrows, h⟩ := bind_eq_ok.1 h
  cases h
  unfold Overrides.underway at hcolumns
  split at hcolumns
  · cases hcolumns
  · next hf =>
    obtain ⟨cols, hcols, hweights, rfl, rfl, hnodup⟩ := columns_eq_ok rfl hcolumns
    obtain ⟨hcols', hnorows⟩ := objective_keeps hcols hobjective
    obtain ⟨built, hbuilt, hp, hmap, hentries⟩ := rows_eq_ok hnorows rfl hrows
    refine ⟨hf, hnodup, hmap, rfl, ?_, ⟨built, hbuilt, ?_, hentries⟩,
      name, cols, p₂, hcols.length_eq.symm, hweights, hobjective, ?_⟩
    · rw [hp]
      exact hcols'
    · rw [hp]
    · rw [hp]

/-- A model with a variable twice is not translated. -/
theorem nodup_of_translate {name : Option String} {x : Problem × Translation} {w w' : Workspace}
    (h : (translate m values { name }).run w = (.ok x, w')) : m.decisions.Nodup := by
  obtain ⟨⟨p, map⟩, v, hcolumns, -⟩ := Action.run_bind_eq_ok h
  obtain ⟨journal, hrun⟩ := Overrides.during_run values m.decisions
    (fun s => columns m s { name }) w
  rw [hcolumns] at hrun
  have hcolumns := (Prod.mk.inj hrun).1
  unfold Overrides.underway at hcolumns
  split at hcolumns
  · cases hcolumns
  · obtain ⟨-, -, -, -, -, hnodup⟩ := columns_eq_ok rfl hcolumns.symm
    exact hnodup

/-! ### The matrix -/

/-- Parallel sequences hold the entries that they were built from. -/
theorem zipEntries_build {matrix : Triplets} {arrays : ParallelArrays}
    (h : matrix.build = .ok arrays) :
    Problem.zipEntries arrays.rows arrays.columns arrays.coefficients = matrix.entries ∧
      arrays.rows.length = arrays.coefficients.length ∧
      arrays.columns.length = arrays.coefficients.length := by
  have hslots : ∀ {xs : List Nat} {ys : List Int}, Triplets.indexSlots xs = .ok ys →
      ys = 0 :: xs.map Int.ofNat := by
    intro xs ys h
    unfold Triplets.indexSlots at h
    split at h
    · cases h
      rfl
    · cases h
  obtain ⟨rows, hrows, h⟩ := bind_eq_ok.1 h
  obtain ⟨columns, hcolumns, h⟩ := bind_eq_ok.1 h
  cases h
  cases hslots hrows
  cases hslots hcolumns
  refine ⟨?_, by simp, by simp⟩
  show (((matrix.entries.map Entry.row).map Int.ofNat).zip
    (((matrix.entries.map Entry.column).map Int.ofNat).zip
      (matrix.entries.map Entry.coefficient))).map _ = matrix.entries
  induction matrix.entries with
  | nil => rfl
  | cons e es ih =>
    simp only [List.map_cons, List.zip_cons_cons, ih]
    simp

/-- **Loading the parallel sequences of a matrix loads its entries.** -/
theorem loadArrays_run {matrix : Triplets} {arrays : ParallelArrays}
    (h : matrix.build = .ok arrays) {r : Ref Lifetime} {p : Problem} {w : Workspace}
    (hp : w.problems.get? r = some (.live p)) :
    (Problem.loadArrays r arrays).run w =
      (.ok (), { w with problems := w.problems.put r (.live (p.load matrix.entries)) }) := by
  obtain ⟨hentries, hrows, hcolumns⟩ := zipEntries_build h
  rw [Problem.loadArrays, Action.run_bind_of_ok _ (Problem.live_run hp), hrows, hcolumns, hentries]
  simp only [bne_self_eq_false, Bool.or_self]
  rfl

end

end Optimization.Translation
