import Optimization.Reconstruction
import Optimization.Proofs.Building
import Optimization.Proofs.Listening

/-!
# How much of a problem gets into a model

A problem is added to a model part by part, and some part may be refused. The names of its columns
are compared with those of the model beforehand, but not with each other.

* `requests`, `Repeats` : what the columns ask for, and when two of them have one name;
* `addAll_run` : variables are added until a name occurs for the second time;
* `addProblem_run` : a problem is added as a whole, or nothing of it, or, where a name is repeated,
  the variables before the repetition;
* `Stepwise.addProblem` : what each step of building a model keeps is kept by the whole.
-/

namespace Optimization

/-! ### Expressions of floats -/

namespace Expression

/-- All factors are floats. -/
def AllReal (factors : List (Power × Number)) : Prop := ∀ entry ∈ factors, ∃ x, entry.2 = .real x

theorem AllReal.put {factors : List (Power × Number)} (h : AllReal factors) (p : Power)
    (x : Float) : AllReal (Keyed.put p (.real x) factors) := by
  induction factors with
  | nil =>
    intro entry hentry
    obtain rfl := List.mem_singleton.1 hentry
    exact ⟨x, rfl⟩
  | cons entry factors ih =>
    obtain ⟨p', y⟩ := entry
    have htail : AllReal factors := fun e he => h e (List.mem_cons_of_mem _ he)
    cases hp : p == p' with
    | true =>
      simp only [Keyed.put, hp, if_true]
      intro e he
      rcases List.mem_cons.1 he with rfl | he
      · exact ⟨x, rfl⟩
      · exact htail e he
    | false =>
      simp only [Keyed.put, hp, Bool.false_eq_true, if_false]
      intro e he
      rcases List.mem_cons.1 he with rfl | he
      · exact h _ List.mem_cons_self
      · exact ih htail e he

/-- A float can always be added to a factor that is a float. -/
theorem accumulate_real {factors : List (Power × Number)} (h : AllReal factors) (p : Power)
    (x : Float) : ∃ factors', accumulate factors p x = .ok factors' ∧ AllReal factors' := by
  unfold accumulate
  cases hp : factors.lookup p with
  | none => exact ⟨_, rfl, h.put p _⟩
  | some y =>
    rw [List.lookup_eq_findSome?] at hp
    obtain ⟨entry, hentry, hy⟩ := List.exists_of_findSome?_eq_some hp
    obtain ⟨-, ⟨⟩⟩ := Option.ite_none_right_eq_some.1 hy
    obtain ⟨z, hz⟩ := h entry hentry
    rw [hz]
    exact ⟨_, rfl, h.put p _⟩

theorem accumulateAll_real {pairs : List (Variable × Scalar)} {factors : List (Power × Number)}
    (h : ∀ pair ∈ pairs, ∃ x, pair.2 = .real x) (hfactors : AllReal factors) :
    ∃ factors', (pairs.foldlM (fun xs (v, x) => do accumulate xs (.first v) (← x.toFloat)) factors :
      Except Fault _) = .ok factors' := by
  induction pairs generalizing factors with
  | nil => exact ⟨factors, rfl⟩
  | cons pair pairs ih =>
    obtain ⟨v, x⟩ := pair
    obtain ⟨y, rfl⟩ := h _ List.mem_cons_self
    obtain ⟨factors', haccumulate, hfactors'⟩ := accumulate_real hfactors (.first v) y
    obtain ⟨result, hresult⟩ :=
      ih (fun pair hpair => h pair (List.mem_cons_of_mem _ hpair)) hfactors'
    refine ⟨result, ?_⟩
    rw [List.foldlM_cons]
    show (accumulate factors (.first v) y >>= _) = _
    rw [haccumulate]
    exact hresult

/-- Terms with floats as their factors are never refused. -/
theorem ofTerms_real {pairs : List (Variable × Scalar)}
    (h : ∀ pair ∈ pairs, ∃ x, pair.2 = .real x) (c : Float) :
    ∃ e, ofTerms pairs (.real c) = .ok e := by
  have hnil : AllReal ([] : List (Power × Number)) := by simp [AllReal]
  obtain ⟨factors, hfactors⟩ := accumulateAll_real h hnil
  exact ⟨_, bind_eq_ok.2 ⟨ofFloat c, rfl, bind_eq_ok.2 ⟨factors, hfactors, rfl⟩⟩⟩

end Expression

namespace Reconstruction

variable {m : Model} {p : Problem} {r : Ref Model} {w w' : Workspace}

/-- The objective of a problem is never refused. -/
theorem objective_ok (p : Problem) (vs : List Variable) : ∃ o, objective p vs = .ok o := by
  have hreal : ∀ pair ∈ (vs.zip p.columns).map fun pair => (pair.1, Scalar.real pair.2.weight),
      ∃ x, pair.2 = .real x := by
    intro pair hpair
    obtain ⟨⟨v, c⟩, -, rfl⟩ := List.mem_map.1 hpair
    exact ⟨_, rfl⟩
  obtain ⟨e, he⟩ := Expression.ofTerms_real hreal p.constant
  exact ⟨_, bind_eq_ok.2 ⟨e, he, rfl⟩⟩

/-- The constraint of a row is never refused. -/
theorem rowConstraint_ok (vs : List Variable) (row : Row) :
    ∃ c, rowConstraint vs row = .ok c := by
  have hreal : ∀ pair ∈ row.entries.filterMap fun entry =>
      (vs[entry.1 - 1]?).map fun v => (v, Scalar.real entry.2), ∃ x, pair.2 = .real x := by
    intro pair hpair
    obtain ⟨⟨j, x⟩, -, h⟩ := List.mem_filterMap.1 hpair
    obtain ⟨v, -, rfl⟩ := Option.map_eq_some_iff.1 h
    exact ⟨_, rfl⟩
  obtain ⟨e, he⟩ := Expression.ofTerms_real hreal 0.0
  exact ⟨_, bind_eq_ok.2 ⟨e, he, rfl⟩⟩

/-- The rows are never refused. -/
theorem addRows_ok (r : Ref Model) (vs : List Variable) (rows : List Row) (w : Workspace) :
    ∃ w', (rows.forM (addRow r vs)).run w = (.ok (), w') := by
  induction rows generalizing w with
  | nil => exact ⟨w, rfl⟩
  | cons row rows ih =>
    obtain ⟨c, hc⟩ := rowConstraint_ok vs row
    have hrow : ∃ w', (addRow r vs row).run w = (.ok (), w') := by
      rw [addRow, hc]
      exact ⟨_, rfl⟩
    obtain ⟨w₁, h₁⟩ := hrow
    obtain ⟨w₂, h₂⟩ := ih w₁
    exact ⟨w₂, (Action.run_bind_of_ok _ h₁).trans h₂⟩

/-! ### Columns -/

/-- The requests for the variables of all columns. -/
def requests (p : Problem) : List Variable.Request :=
  p.columns.zipIdx.map fun (c, k) => variableRequest (k + 1) c

/-- The columns of a problem could all become variables that the model does not have yet, but two of
them would get one name. -/
structure Repeats (m : Model) (p : Problem) : Prop where
  accepted : ∀ request ∈ requests p, ∃ x, request.check = .ok x
  new : ∀ request ∈ requests p, request.name ∉ m.decisions.map (·.name)
  repeated : ¬((requests p).map (·.name)).Nodup

/-- The cells that are there keep their contents. -/
def Kept {α : Type} (s s' : Store α) : Prop := ∀ c, (s.get? c).isSome → s'.get? c = s.get? c

theorem Kept.trans {α : Type} {s s' s'' : Store α} (h : Kept s s') (h' : Kept s' s'') :
    Kept s s'' := fun c hc => (h' c ((h c hc).symm ▸ hc)).trans (h c hc)

/-- A cell that is new after cells were added was new before. -/
theorem Kept.get?_eq_none {α : Type} {s s' : Store α} (h : Kept s s') {c : Ref α}
    (hc : s'.get? c = none) : s.get? c = none := by
  cases hs : s.get? c with
  | none => rfl
  | some x =>
    have := h c (by rw [hs]; rfl)
    rw [hc, hs] at this
    cases this

theorem kept_push {α : Type} (s : Store α) (x : α) : Kept s (s.push x) :=
  fun _ hc => Store.get?_push x hc

/-- New variables get new cells, unless one of the requests is refused. -/
theorem newVariables_run (rs : List Variable.Request) (w : Workspace) :
    ∃ intervals, Kept w.intervals intervals ∧
      ((∃ vs, (∀ request ∈ rs, ∃ x, request.check = .ok x) ∧ vs.map (·.name) = rs.map (·.name) ∧
          (rs.mapM Modeling.newVariable).run w = (.ok vs, { w with intervals })) ∨
        ∃ fault, (∃ request ∈ rs, ∀ x, request.check ≠ .ok x) ∧
          (rs.mapM Modeling.newVariable).run w = (.error fault, { w with intervals })) := by
  induction rs generalizing w with
  | nil => exact ⟨w.intervals, fun _ _ => rfl, .inl ⟨[], by simp, rfl, rfl⟩⟩
  | cons request rs ih =>
    have hfirst := Modeling.run_newVariable request w
    rw [List.mapM_cons]
    cases hcheck : request.check with
    | error fault =>
      rw [hcheck] at hfirst
      refine ⟨w.intervals, fun _ _ => rfl, .inr ⟨fault, ⟨request, List.mem_cons_self, ?_⟩, ?_⟩⟩
      · rw [hcheck]
        rintro x ⟨⟩
      · exact Action.run_bind_of_error _ hfirst
    | ok x =>
      obtain ⟨interval, domain⟩ := x
      rw [hcheck] at hfirst
      rw [Action.run_bind_of_ok _ hfirst]
      obtain ⟨intervals, hkept, hrest⟩ := ih { w with intervals := w.intervals.push interval }
      refine ⟨intervals, fun c hc => ?_, ?_⟩
      · have hpush := Store.get?_push interval hc
        exact (hkept c (hpush ▸ hc)).trans hpush
      · rcases hrest with ⟨vs, haccepted, hnames, hrun⟩ | ⟨fault, ⟨request', hmem, hrefused⟩, hrun⟩
        · left
          refine ⟨⟨w.intervals.next, request.name, domain⟩ :: vs, ?_, ?_, ?_⟩
          · exact List.forall_mem_cons.2 ⟨⟨_, hcheck⟩, haccepted⟩
          · rw [List.map_cons, List.map_cons, hnames]
          · rw [Action.run_bind_of_ok _ hrun]
            rfl
        · right
          refine ⟨fault, ⟨request', List.mem_cons_of_mem _ hmem, hrefused⟩, ?_⟩
          exact Action.run_bind_of_error _ hrun

/-- A model with more variables. -/
def extend (m : Model) (vs : List Variable) : Model :=
  { m with
    decisions := m.decisions ++ vs
    index := m.index ++ vs.map fun v => (v.name, v) }

theorem extend_nil (m : Model) : extend m [] = m := by
  simp [extend]

theorem extend_append (m : Model) (us vs : List Variable) :
    extend m (us ++ vs) = extend (extend m us) vs := by
  simp [extend]

/-- The index of a model that got more variables knows their names. -/
theorem isSome_lookup_extend {name : String} (vs : List Variable)
    (hm : m.index.lookup name = none) :
    ((extend m vs).index.lookup name).isSome = true ↔ name ∈ vs.map (·.name) := by
  rw [extend, List.lookup_append, hm, Option.none_or, Keyed.isSome_lookup, List.map_map]
  rfl

/-- **Variables are added until a name occurs for the second time.** -/
theorem addAll_run (hm : w.models.get? r = some m) (vs : List Variable)
    (hnew : ∀ v ∈ vs, m.index.lookup v.name = none) :
    ((vs.map (·.name)).Nodup ∧ (vs.forM (Modeling.addVariable r)).run w =
        (.ok (), { w with models := w.models.put r (extend m vs) })) ∨
      ∃ before v after, vs = before ++ v :: after ∧ (before.map (·.name)).Nodup ∧
        v.name ∈ before.map (·.name) ∧ (vs.forM (Modeling.addVariable r)).run w =
          (.error (.duplicateName v.name),
            { w with models := w.models.put r (extend m before) }) := by
  -- from the end: the last variable is only tried when all before it were added
  induction vs using List.reverseRecOn with
  | nil =>
    left
    refine ⟨List.nodup_nil, ?_⟩
    rw [extend_nil, ← Store.get_of_get? hm, Store.put_get]
    rfl
  | append_singleton vs v ih =>
    have hsplit : ((vs ++ [v]).forM (Modeling.addVariable r)) =
        (do vs.forM (Modeling.addVariable r); Modeling.addVariable r v) := by
      simp [List.forM_append]
    rw [hsplit]
    rcases ih fun u hu => hnew u (List.mem_append_left _ hu) with
      ⟨hnodup, hrun⟩ | ⟨before, u, after, rfl, hnodup, hmem, hrun⟩
    · have hlast := Modeling.run_addVariable r v
        { w with models := w.models.put r (extend m vs) }
      rw [Store.get_of_get? (Store.get?_put_self hm), Model.addVariable] at hlast
      have hlookup := isSome_lookup_extend vs
        (hnew v (List.mem_append_right _ List.mem_cons_self))
      rw [Action.run_bind_of_ok _ hrun]
      by_cases hv : v.name ∈ vs.map (·.name)
      · rw [if_pos (hlookup.2 hv)] at hlast
        exact .inr ⟨vs, v, [], rfl, hnodup, hv, hlast⟩
      · rw [if_neg (mt hlookup.1 hv)] at hlast
        left
        refine ⟨?_, hlast.trans ?_⟩
        · rw [List.map_append, List.nodup_append]
          refine ⟨hnodup, List.pairwise_singleton _ _, ?_⟩
          rintro a ha b hb rfl
          obtain rfl : a = v.name := List.mem_singleton.1 hb
          exact hv ha
        · show (_, { w with
            models := (w.models.put r (extend m vs)).put r (extend (extend m vs) [v]) }) = _
          rw [Store.put_put, extend_append]
    · right
      refine ⟨before, u, after ++ [v], by simp, hnodup, hmem, ?_⟩
      exact Action.run_bind_of_error _ hrun

/-- A model that got the variables of the columns before the first repeated name, and nothing
else. -/
def Torn (m : Model) (p : Problem) (m' : Model) : Prop :=
  ∃ before v after, (before ++ v :: after).map (·.name) = (requests p).map (·.name) ∧
    (before.map (·.name)).Nodup ∧ v.name ∈ before.map (·.name) ∧ m' = extend m before

/-- A torn model is not what it was. -/
theorem Torn.ne {m' : Model} (h : Torn m p m') : m' ≠ m := by
  obtain ⟨before, v, after, -, -, hmem, rfl⟩ := h
  intro he
  have hlength := congrArg (fun m => m.decisions.length) he
  have hempty : before = [] := by
    simpa [extend] using hlength
  simp [hempty] at hmem

/-! ### Whole problems -/

theorem newVariables_eq (p : Problem) :
    newVariables p = (requests p).mapM Modeling.newVariable := by
  rw [requests, List.mapM_map]
  rfl

/-- No name is used already exactly when no column has the name of a variable of the model. -/
theorem clashes_eq_nil {vs : List Variable} (hnames : vs.map (·.name) = (requests p).map (·.name)) :
    (clashes m vs).isEmpty = true ↔
      ∀ request ∈ requests p, request.name ∉ m.decisions.map (·.name) := by
  rw [List.isEmpty_iff, clashes, hnames, List.filter_eq_nil_iff]
  simp

/-- **A problem is added as a whole, or it is refused and nothing is added, or its columns repeat a
name and the variables before the repetition are added.** -/
theorem addProblem_run (hm : w.models.get? r = some m)
    (hindex : ∀ name, name ∉ m.decisions.map (·.name) → m.index.lookup name = none) (p : Problem) :
    ∃ intervals, Kept w.intervals intervals ∧
      ((¬Repeats m p ∧ ∃ fault, (addProblem r p).run w = (.error fault, { w with intervals })) ∨
        (Repeats m p ∧ ∃ fault m', Torn m p m' ∧ (addProblem r p).run w =
          (.error fault, { w with intervals, models := w.models.put r m' })) ∨
        (¬Repeats m p ∧ ∃ w', (addProblem r p).run w = (.ok (), w'))) := by
  obtain ⟨intervals, hkept, ⟨vs, haccepted, hnames, hrun⟩ |
    ⟨fault, ⟨request, hmem, hrefused⟩, hrun⟩⟩ := newVariables_run (requests p) w
  · refine ⟨intervals, hkept, ?_⟩
    rw [← newVariables_eq] at hrun
    have hmodel : (Modeling.model r).run { w with intervals } = (.ok m, { w with intervals }) := by
      rw [← Store.get_of_get? hm]
      rfl
    rw [addProblem, Action.run_bind_of_ok _ hrun, Action.run_bind_of_ok _ hmodel]
    have hclashes := clashes_eq_nil (m := m) hnames
    cases hempty : (clashes m vs).isEmpty with
    | false =>
      -- a name of the model is used: refused before anything is added
      simp only [hempty, Bool.false_eq_true, if_false]
      refine .inl ⟨fun h => ?_, _, rfl⟩
      rw [hclashes.2 h.new] at hempty
      cases hempty
    | true =>
      simp only [hempty, if_true]
      right
      have hnew := hclashes.1 hempty
      have hlookup : ∀ v ∈ vs, m.index.lookup v.name = none := by
        intro v hv
        refine hindex _ ?_
        have hname : v.name ∈ (requests p).map (·.name) := hnames ▸ List.mem_map_of_mem hv
        obtain ⟨request, hrequest, he⟩ := List.mem_map.1 hname
        exact he ▸ hnew request hrequest
      rcases addAll_run (w := { w with intervals }) hm vs hlookup with
        ⟨hnodup, hadd⟩ | ⟨before, v, after, rfl, hnodup, hmem, hadd⟩
      · refine .inr ⟨fun h => h.repeated (hnames ▸ hnodup), ?_⟩
        obtain ⟨o, ho⟩ := objective_ok p vs
        rw [ho, Action.run_bind_of_ok _ hadd, Action.run_bind_of_ok _ (Action.run_of _ _),
          Action.run_bind_of_ok (x := Modeling.addObjective r o) _ rfl]
        obtain ⟨w', hrows⟩ := addRows_ok r vs (constraintRows p.rows) _
        rw [Action.run_bind_of_ok _ hrows]
        exact ⟨_, rfl⟩
      · have htorn : Torn m p (extend m before) :=
          ⟨before, v, after, hnames, hnodup, hmem, rfl⟩
        refine .inl ⟨⟨haccepted, hnew, fun h => ?_⟩, .duplicateName v.name, _, htorn, ?_⟩
        · rw [← hnames, List.map_append, List.map_cons] at h
          exact List.disjoint_of_nodup_append h hmem List.mem_cons_self
        · exact Action.run_bind_of_error _ hadd
  · refine ⟨intervals, hkept, .inl ⟨fun h => ?_, fault, ?_⟩⟩
    · obtain ⟨x, hx⟩ := h.accepted request hmem
      exact hrefused x hx
    · rw [← newVariables_eq] at hrun
      exact Action.run_bind_of_error _ hrun

/-- An action that is to add a problem from some source to a model is all or nothing, unless the
problem repeats a name: then it is refused and the model is torn. -/
structure WholeUnlessRepeated (x : Action Unit) (source : Problem → Prop) (r : Ref Model)
    (m : Model) (w : Workspace) : Prop where
  torn : ∀ p, source p → Repeats m p → ∃ fault w' m',
    x.run w = (.error fault, w') ∧ w'.models.get? r = some m' ∧ m' ≠ m ∧ Torn m p m'
  whole : (∀ p, source p → ¬Repeats m p) → ∀ fault w',
    x.run w = (.error fault, w') → Solver.SameModel r w w'

theorem addProblem_whole {direct : Bool} {vs : List Variable} (hbuilt : Modeling.Built direct w vs)
    (hm : w.models.get? r = some m) (p : Problem) :
    WholeUnlessRepeated (addProblem r p) (· = p) r m w := by
  have hsound := hbuilt.sound
  have hmodel : Modeling.SoundModel direct vs m := Store.get_of_get? hm ▸ hsound.models r
  obtain ⟨intervals, hkept, ⟨hrepeats, fault, hrun⟩ | ⟨hrepeats, fault, m', htorn, hrun⟩ |
    ⟨hrepeats, w', hrun⟩⟩ := addProblem_run hm (fun _ => hmodel.lookup_index) p
  · refine ⟨fun q hq h => absurd (hq ▸ h) hrepeats, fun _ fault' w' h => ?_⟩
    rw [hrun] at h
    cases h
    refine ⟨rfl, fun _ _ => rfl, fun v hv => hkept _ (hsound.cells v ?_)⟩
    exact (hsound.models r).decisions v hv
  · refine ⟨?_, fun h => absurd hrepeats (h p rfl)⟩
    rintro q rfl -
    exact ⟨fault, _, m', hrun, Store.get?_put_self hm, htorn.ne, htorn⟩
  · refine ⟨fun q hq h => absurd (hq ▸ h) hrepeats, fun _ fault' w'' h => ?_⟩
    rw [hrun] at h
    cases h

/-! ### Relations along an addition -/

/-- A relation between workspaces that each step of building a model keeps, whatever becomes of the
step. -/
structure Stepwise (R : Workspace → Workspace → Prop) : Prop where
  newVariable : ∀ request, Action.Along R (Modeling.newVariable request)
  addVariable : ∀ r v, Action.Along R (Modeling.addVariable r v)
  newConstraint : ∀ c, Action.Along R (Modeling.newConstraint c)
  addConstraint : ∀ r c name, Action.Along R (Modeling.addConstraint r c name)
  addObjective : ∀ r o, Action.Along R (Modeling.addObjective r o)
  note : ∀ severity origin text, Action.Along R (Action.note severity origin text)

/-- **What each step keeps is kept by the addition of a problem.** -/
theorem Stepwise.addProblem {R : Workspace → Workspace → Prop} [Action.Steady R] (h : Stepwise R)
    (r : Ref Model) (q : Problem) : Action.Along R (addProblem r q) := by
  refine .bind (.mapM (fun _ => h.newVariable _) _) fun vs => ?_
  refine (Solver.along_model r).bind fun m => ?_
  have hrow : ∀ row, Action.Along R (addRow r vs row) := fun row =>
    (Action.Along.of _).bind fun c => (h.newConstraint c).bind fun cell => h.addConstraint r cell none
  by_cases hempty : (clashes m vs).isEmpty = true
  · simp only [hempty, if_true]
    refine (Action.Along.forM (h.addVariable r) vs).bind fun _ => ?_
    refine (Action.Along.of _).bind fun o => (h.addObjective r o).bind fun _ => ?_
    refine (Action.Along.forM hrow _).bind fun _ => ?_
    exact (Solver.along_model r).bind fun _ => h.note _ _ _
  · simp only [hempty]
    exact .of_after fun _ => rfl

end Reconstruction

end Optimization
