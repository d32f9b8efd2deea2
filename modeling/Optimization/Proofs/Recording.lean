import Optimization.Proofs.Edits
import Optimization.Proofs.Layout

/-!
# The calls of a translation

A translation beside which all its calls to the problem are recorded. Without the record it is the
translation itself, and the record shows every index that was passed on.

* `Recorded`, `recorded` : a problem with the calls that made it, and the translation into one;
* `recorded_forget` : without the record it is the translation;
* `Traced` : the record leads to the problem, and all its calls are in range;
* `traced_of_recorded`, `traced_of_computed` : so it is for a whole translation.
-/

namespace Optimization.Translation
open Problem (Edit AllInRange)

/-- A problem with the calls that made it. -/
structure Recorded where
  problem : Problem
  edits : List Edit := []

/-- Make a call and record it. -/
def Recorded.apply (p : Recorded) (e : Edit) : Recorded := ⟨e.apply p.problem, p.edits ++ [e]⟩

/-! ### The recorded translation -/

/-- Set up the next column for a variable. -/
def recordColumn (s : Store Interval) (pm : Recorded × IndexMap) (v : Variable) :
    Except Fault (Recorded × IndexMap) := do
  let (p, m) := pm
  let b := s.get v.cell
  let (t, lower, upper) ← readSpan b
  let name ← Problem.limitName v.name
  let p := p.apply (.setColumn (m.columnCount + 1) name t lower upper (columnKind v.domain b))
  pure (p, ← m.addVariable v)

/-- A column for each variable of a model. -/
def recordColumns (m : Model) (s : Store Interval) (p : Recorded) :
    Except Fault (Recorded × IndexMap) :=
  m.decisions.foldlM (recordColumn s) (p.apply (.addColumns m.decisions.length), {})

/-- Set up the objective of a problem. -/
def recordObjective (map : IndexMap) (p : Recorded) (o : Objective) : Except Fault Recorded := do
  let ws ← weights map o.expression
  let p := ws.foldl (fun p (j, x) => p.apply (.setWeight j x)) p
  let p := p.apply (.setWeight 0 o.expression.constant)
  pure (p.apply (.setObjective (← Problem.limitName o.name) o.direction.isMaximize))

/-- Set up the objective of a model if it has one. -/
def recordObjectives (m : Model) (map : IndexMap) (p : Recorded) : Except Fault Recorded :=
  match m.objectives.head? with
  | some o => recordObjective map p o
  | none => pure p

/-- What the rows are built up in. -/
structure RecordedRows where
  problem : Recorded
  indexMap : IndexMap
  matrix : Triplets := {}

/-- Set up the next row for a constraint. -/
def recordRow (cs : Store Constraint) (st : RecordedRows) (r : Ref Constraint) :
    Except Fault RecordedRows := do
  let c := cs.get r
  let i := st.indexMap.rowCount + 1
  let (lower, upper) := foldConstant c.lower c.upper c.expression.constant
  let t ← BoundType.classify lower upper
  let name ← Problem.limitName (rowName c.name i)
  let problem := st.problem.apply (.setRow i name t lower upper)
  let indexMap ← st.indexMap.addConstraint r c.name
  let entries ← rowEntries indexMap i c.expression
  pure ⟨problem, indexMap, entries.foldl Triplets.push st.matrix⟩

/-- A row for each constraint of a model. -/
def recordRows (m : Model) (cs : Store Constraint) (map : IndexMap) (p : Recorded) :
    Except Fault RecordedRows :=
  m.constraints.foldlM (recordRow cs) ⟨p.apply (.addRows m.constraints.length), map, {}⟩

/-- The translation with its record, from a problem without one. -/
def recorded (m : Model) (values : Overrides) (cs : Store Constraint) (s : Store Interval)
    (p : Problem) : Except Fault (Recorded × Translation) := do
  let pm ← Overrides.underway values m.decisions s fun s => recordColumns m s ⟨p, []⟩
  let p ← recordObjectives m pm.2 pm.1
  let st ← recordRows m cs pm.2 p
  pure (st.problem, ⟨st.indexMap, st.matrix, m.isMixedInteger⟩)

/-! ### Without the record -/

theorem map_bind {α β γ : Type} (f : β → γ) (x : Except Fault α) (g : α → Except Fault β) :
    (x >>= g).map f = x >>= fun a => (g a).map f := by
  cases x <;> rfl

/-- A step that is another one after something is forgotten comes after it. -/
theorem bind_map {α β γ : Type} (f : α → β) (x : Except Fault α) (g : β → Except Fault γ) :
    x.map f >>= g = x >>= fun a => g (f a) := by
  cases x <;> rfl

/-- Steps that agree after something is forgotten agree together. -/
theorem foldlM_map {α σ τ : Type} {f : τ → α → Except Fault τ} {g : σ → α → Except Fault σ}
    {forget : τ → σ} (h : ∀ t a, (f t a).map forget = g (forget t) a) (xs : List α) (t : τ) :
    (xs.foldlM f t).map forget = xs.foldlM g (forget t) := by
  induction xs generalizing t with
  | nil => rfl
  | cons x xs ih =>
    rw [List.foldlM_cons, List.foldlM_cons, map_bind, ← h, bind_map]
    congr 1
    funext t'
    exact ih t'

section

variable {m : Model} {values : Overrides} {cs : Store Constraint} {s : Store Interval}
  {map : IndexMap} {p : Problem}

theorem recordColumns_forget (m : Model) (s : Store Interval) (p : Recorded) :
    (recordColumns m s p).map (fun x => (x.1.problem, x.2)) = columns m s p.problem := by
  refine foldlM_map (fun pm v => ?_) _ _
  simp only [recordColumn, putColumn, map_bind]
  rfl

theorem foldl_setWeight_forget (ws : List (Nat × Float)) (p : Recorded) :
    (ws.foldl (fun p (j, x) => p.apply (.setWeight j x)) p).problem =
      ws.foldl (fun p (j, x) => p.setWeight j x) p.problem := by
  induction ws generalizing p with
  | nil => rfl
  | cons w ws ih => exact ih _

theorem recordObjectives_forget (m : Model) (map : IndexMap) (p : Recorded) :
    (recordObjectives m map p).map Recorded.problem = objective m map p.problem := by
  unfold recordObjectives objective
  cases m.objectives.head? with
  | none => rfl
  | some o =>
    simp only [recordObjective, putObjective, map_bind, ← foldl_setWeight_forget]
    rfl

theorem recordRows_forget (m : Model) (cs : Store Constraint) (map : IndexMap) (p : Recorded) :
    (recordRows m cs map p).map (fun st => RowState.mk st.problem.problem st.indexMap st.matrix) =
      rows m cs map p.problem := by
  refine foldlM_map (fun st r => ?_) _ _
  simp only [recordRow, putRow, map_bind]
  rfl

theorem underway_map {α β : Type} (f : α → β) (values : Overrides) (vs : List Variable)
    (s : Store Interval) (g : Store Interval → Except Fault α) :
    (Overrides.underway values vs s g).map f =
      Overrides.underway values vs s fun s => (g s).map f := by
  unfold Overrides.underway
  split <;> rfl

/-- **Without the record it is the translation.** -/
theorem recorded_forget (m : Model) (values : Overrides) (cs : Store Constraint)
    (s : Store Interval) (p : Problem) :
    (recorded m values cs s p).map (fun x => (x.1.problem, x.2)) = computed m values cs s p := by
  unfold recorded computed complete
  simp only [map_bind]
  rw [show (Overrides.underway values m.decisions s fun s => columns m s p) =
    (Overrides.underway values m.decisions s fun s => recordColumns m s ⟨p, []⟩).map
      (fun x => (x.1.problem, x.2)) by
    rw [underway_map]
    congr 1
    funext s
    exact (recordColumns_forget m s ⟨p, []⟩).symm, bind_map]
  congr 1
  funext pm
  rw [← recordObjectives_forget, bind_map]
  congr 1
  funext p'
  rw [← recordRows_forget, bind_map]
  rfl

/-! ### Ranges -/

/-- The record leads from a problem to another, and all its calls are in range. -/
structure Traced (start : Problem) (p : Recorded) : Prop where
  problem : p.problem = p.edits.foldl Edit.apply start
  inRange : AllInRange start p.edits

variable {start : Problem} {q q' : Recorded}

theorem traced_start (start : Problem) : Traced start ⟨start, []⟩ := ⟨rfl, trivial⟩

/-- A call in range keeps all calls in range. -/
theorem Traced.apply (h : Traced start q) {e : Edit} (he : e.InRange q.problem) :
    Traced start (q.apply e) where
  problem := by
    simp only [Recorded.apply, List.foldl_append, List.foldl_cons, List.foldl_nil, h.problem]
  inRange := Problem.allInRange_append.2 ⟨h.inRange, h.problem ▸ he, trivial⟩

/-- The columns that are still to come have a number of the problem. -/
theorem recordColumn_traced {map' : IndexMap} {v : Variable} (h : Traced start q)
    (hroom : map.columnCount + 1 ≤ q.problem.columnCount)
    (hv : recordColumn s (q, map) v = .ok (q', map')) :
    Traced start q' ∧ map' = { map with decisions := map.decisions ++ [v] } ∧
      q'.problem.columnCount = q.problem.columnCount := by
  obtain ⟨⟨t, lower, upper⟩, -, hv⟩ := bind_eq_ok.1 hv
  obtain ⟨name, -, hv⟩ := bind_eq_ok.1 hv
  obtain ⟨map'', hadd, hv⟩ := bind_eq_ok.1 hv
  cases hv
  obtain ⟨-, rfl⟩ := addVariable_eq_ok.1 hadd
  exact ⟨h.apply ⟨by omega, hroom⟩, rfl, Problem.columnCount_apply _ _⟩

theorem recordColumns_traced {vs : List Variable} {map' : IndexMap} (h : Traced start q)
    (hroom : map.columnCount + vs.length ≤ q.problem.columnCount)
    (hvs : vs.foldlM (recordColumn s) (q, map) = .ok (q', map')) :
    Traced start q' ∧ map' = { map with decisions := map.decisions ++ vs } ∧
      q'.problem.columnCount = q.problem.columnCount := by
  induction vs generalizing q map with
  | nil =>
    cases hvs
    exact ⟨h, by rw [List.append_nil], rfl⟩
  | cons v vs ih =>
    rw [List.length_cons] at hroom
    obtain ⟨⟨q₁, map₁⟩, hv, hvs⟩ := bind_eq_ok.1 hvs
    obtain ⟨h₁, rfl, hcount₁⟩ := recordColumn_traced h (by omega) hv
    have hroom₁ : IndexMap.columnCount { map with decisions := map.decisions ++ [v] } + vs.length ≤
        q₁.problem.columnCount := by
      rw [hcount₁, IndexMap.columnCount, List.length_append, List.length_singleton]
      unfold IndexMap.columnCount at hroom
      omega
    obtain ⟨h', rfl, hcount'⟩ := ih h₁ hroom₁ hvs
    exact ⟨h', by rw [List.append_assoc, List.singleton_append], hcount'.trans hcount₁⟩

/-- Weights for columns of the problem are in range. -/
theorem setWeights_traced {ws : List (Nat × Float)} (h : Traced start q)
    (hws : ∀ w ∈ ws, w.1 ≤ q.problem.columnCount) :
    Traced start (ws.foldl (fun p (j, x) => p.apply (.setWeight j x)) q) := by
  induction ws generalizing q with
  | nil => exact h
  | cons w ws ih =>
    refine ih (h.apply (hws w List.mem_cons_self)) fun w' hw' => ?_
    rw [show (q.apply (.setWeight w.1 w.2)).problem.columnCount = q.problem.columnCount from
      Problem.columnCount_apply _ _]
    exact hws w' (List.mem_cons_of_mem _ hw')

/-- A place in a list of variables is at most their number. -/
theorem columnOf_le {v : Variable} {j : Nat} (h : map.columnOf v = .ok j) :
    1 ≤ j ∧ j ≤ map.columnCount :=
  place?_le (columnOf_eq_ok h)

theorem mem_keys_put {j k : Nat} {x : Float} {ws : List (Nat × Float)}
    (h : k ∈ (Keyed.put j x ws).map Prod.fst) : k ∈ ws.map Prod.fst ∨ k = j := by
  rw [Keyed.keys_put, List.mem_append] at h
  rcases h with h | h
  · exact .inl h
  · split_ifs at h
    · cases h
    · exact .inr (List.mem_singleton.1 h)

theorem putWeights_le {terms : List (Power × Number)} {ws ws' : List (Nat × Float)}
    (hws : ∀ j ∈ ws.map Prod.fst, j ≤ map.columnCount)
    (h : terms.foldlM (fun xs (p, x) => do
      let j ← map.columnOf p.var
      pure (Keyed.put j ((xs.lookup j).getD 0.0 + (← x.toFloat)) xs)) ws =
        (.ok ws' : Except Fault _)) :
    ∀ j ∈ ws'.map Prod.fst, j ≤ map.columnCount := by
  induction terms generalizing ws with
  | nil =>
    cases h
    exact hws
  | cons term terms ih =>
    obtain ⟨ws₁, h₁, h⟩ := bind_eq_ok.1 h
    obtain ⟨j, hj, h₁⟩ := bind_eq_ok.1 h₁
    obtain ⟨x, -, h₁⟩ := bind_eq_ok.1 h₁
    cases h₁
    refine ih (fun k hk => ?_) h
    rcases mem_keys_put hk with hk | rfl
    · exact hws k hk
    · exact (columnOf_le hj).2

theorem weights_le {e : Expression} {ws : List (Nat × Float)} (h : weights map e = .ok ws) :
    ∀ w ∈ ws, w.1 ≤ map.columnCount :=
  fun w hw => putWeights_le (by simp) h w.1 (List.mem_map_of_mem hw)

theorem recordObjectives_traced (h : Traced start q)
    (hmap : map.columnCount ≤ q.problem.columnCount)
    (ho : recordObjectives m map q = .ok q') : Traced start q' := by
  unfold recordObjectives at ho
  split at ho
  · obtain ⟨ws, hws, ho⟩ := bind_eq_ok.1 ho
    obtain ⟨name, -, ho⟩ := bind_eq_ok.1 ho
    cases ho
    have hweights := setWeights_traced h fun w hw =>
      Nat.le_trans (weights_le hws w hw) hmap
    exact (hweights.apply (e := .setWeight 0 _) (Nat.zero_le _)).apply trivial
  · cases ho
    exact h

/-- The rows that are still to come have a number of the problem. -/
theorem recordRow_traced {st st' : RecordedRows} {r : Ref Constraint} (h : Traced start st.problem)
    (hroom : st.indexMap.rowCount + 1 ≤ st.problem.problem.rowCount)
    (hr : recordRow cs st r = .ok st') :
    Traced start st'.problem ∧ st'.indexMap.rowCount = st.indexMap.rowCount + 1 ∧
      st'.problem.problem.rowCount = st.problem.problem.rowCount := by
  obtain ⟨t, -, hr⟩ := bind_eq_ok.1 hr
  obtain ⟨name, -, hr⟩ := bind_eq_ok.1 hr
  obtain ⟨map', hadd, hr⟩ := bind_eq_ok.1 hr
  obtain ⟨es, -, hr⟩ := bind_eq_ok.1 hr
  cases hr
  obtain ⟨-, rfl⟩ := addConstraint_eq_ok.1 hadd
  refine ⟨h.apply ⟨by omega, hroom⟩, ?_, Problem.rowCount_apply _ _⟩
  simp [IndexMap.rowCount]

theorem recordRows_traced {rs : List (Ref Constraint)} {st st' : RecordedRows}
    (h : Traced start st.problem)
    (hroom : st.indexMap.rowCount + rs.length ≤ st.problem.problem.rowCount)
    (hrs : rs.foldlM (recordRow cs) st = .ok st') : Traced start st'.problem := by
  induction rs generalizing st with
  | nil =>
    cases hrs
    exact h
  | cons r rs ih =>
    rw [List.length_cons] at hroom
    obtain ⟨st₁, hr, hrs⟩ := bind_eq_ok.1 hrs
    obtain ⟨h₁, hmap₁, hcount₁⟩ := recordRow_traced h (by omega) hr
    exact ih h₁ (by omega) hrs

/-- **All calls of a translation are in range when their turn comes.** -/
theorem traced_of_recorded {name : Option String} {t : Translation}
    (h : recorded m values cs s { name } = .ok (q, t)) : Traced { name } q := by
  obtain ⟨⟨q₁, map₁⟩, hcolumns, h⟩ := bind_eq_ok.1 h
  obtain ⟨q₂, hobjective, h⟩ := bind_eq_ok.1 h
  obtain ⟨st, hrows, h⟩ := bind_eq_ok.1 h
  cases h
  unfold Overrides.underway at hcolumns
  split at hcolumns
  · cases hcolumns
  · have hadd : Traced { name } (Recorded.apply ⟨{ name }, []⟩ (.addColumns m.decisions.length)) :=
      (traced_start _).apply trivial
    have hroom : m.decisions.length ≤
        (Recorded.apply ⟨{ name }, []⟩ (.addColumns m.decisions.length)).problem.columnCount := by
      rw [Recorded.apply, Problem.columnCount_apply]
      exact Nat.le_add_left _ _
    obtain ⟨h₁, rfl, hcount₁⟩ := recordColumns_traced hadd
      (by simpa [IndexMap.columnCount] using hroom) hcolumns
    have h₂ := recordObjectives_traced h₁ (hcount₁ ▸ hroom) hobjective
    refine recordRows_traced (h₂.apply (e := .addRows m.constraints.length) trivial) ?_ hrows
    show 0 + m.constraints.length ≤ (Edit.apply q₂.problem (.addRows _)).rowCount
    rw [Problem.rowCount_apply, Nat.zero_add]
    exact Nat.le_add_left _ _

/-- **A translation that is done has a record.** -/
theorem traced_of_computed {name : Option String} {t : Translation}
    (h : computed m values cs s { name } = .ok (p, t)) :
    ∃ edits, recorded m values cs s { name } = .ok (⟨p, edits⟩, t) ∧
      Traced { name } ⟨p, edits⟩ := by
  have hforget := recorded_forget m values cs s { name }
  rw [h] at hforget
  cases hrecorded : recorded m values cs s { name } with
  | error fault =>
    rw [hrecorded] at hforget
    cases hforget
  | ok x =>
    obtain ⟨⟨p', edits⟩, t'⟩ := x
    rw [hrecorded] at hforget
    cases hforget
    exact ⟨edits, rfl, traced_of_recorded hrecorded⟩

end

end Optimization.Translation
