import Optimization.Solving
import Optimization.Proofs.Powers
import Mathlib.Data.List.Nodup

/-!
# Workspaces in which models were built

The states that the operations on variables, constraints and models lead to. All that is made of
operations of these kinds, such as loading a file, leads to such states as well.

* `Step`, `Built` : single operations, and what they lead to from the start;
* `Sound` : what always holds of variables, models and constraints;
* `Built.sound` : no operation breaks it;
* `Built.constructed` : variables have names, and expressions are made by their operations.

Operations that extend the lists of a model directly are only among them when `direct` is true;
without them the index of a model and its list of variables are in step.
-/

namespace Optimization.Modeling

/-- An operation on the variables, constraints and models of a workspace; `vs` are the variables
that were made so far. -/
inductive Step (direct : Bool) (w : Workspace) (vs : List Variable) :
    Workspace → List Variable → Prop
  | newVariable {request : Variable.Request} {v : Variable}
    (h : ((newVariable request).run w).1 = .ok v) :
    Step direct w vs ((newVariable request).after w) (v :: vs)
  | setBounds (v : Variable) (lower upper : Option Scalar) :
    Step direct w vs ((setBounds v lower upper).after w) vs
  | newConstraint {c : Constraint} (h : c.expression.Formed) :
    Step direct w vs ((newConstraint c).after w) vs
  | newModel (name : Scalar) : Step direct w vs ((newModel (.empty name)).after w) vs
  | addVariable (r : Ref Model) {v : Variable} (h : v ∈ vs) :
    Step direct w vs ((addVariable r v).after w) vs
  | addConstraint (r : Ref Model) (c : Ref Constraint) (name : Option String) :
    Step direct w vs ((addConstraint r c name).after w) vs
  | addObjective (r : Ref Model) {o : Objective} (h : o.expression.Formed) :
    Step direct w vs ((addObjective r o).after w) vs
  | appendVariable (r : Ref Model) {v : Variable} (hd : direct = true) (h : v ∈ vs) :
    Step direct w vs ((appendVariable r v).after w) vs
  | appendConstraint (r : Ref Model) (c : Ref Constraint) (hd : direct = true) :
    Step direct w vs ((appendConstraint r c).after w) vs
  /-- Something that has to do with other parts of the workspace. -/
  | other {w' : Workspace} (hi : w'.intervals = w.intervals) (hc : w'.constraints = w.constraints)
    (hm : w'.models = w.models) : Step direct w vs w' vs

/-- The workspaces that operations lead to, with the variables that were made. -/
inductive Built (direct : Bool) : Workspace → List Variable → Prop
  | start : Built direct {} []
  | step {w w' : Workspace} {vs vs' : List Variable} (h : Built direct w vs)
    (hstep : Step direct w vs w' vs') : Built direct w' vs'

/-! ### What always holds -/

/-- What always holds of a model: its variables were made, its index knows only variables that it
has, and in its objectives a power occurs once. -/
structure SoundModel (direct : Bool) (vs : List Variable) (m : Model) : Prop where
  decisions : ∀ v ∈ m.decisions, v ∈ vs
  index : ∀ entry ∈ m.index, entry.2 ∈ m.decisions ∧ entry.1 = entry.2.name
  objectives : ∀ o ∈ m.objectives, o.expression.Distinct
  names : direct = false → (m.decisions.map (·.name)).Nodup
  inStep : direct = false → m.index = m.decisions.map fun v => (v.name, v)

/-- What always holds of a workspace: variables have cells of their own, and models and constraints
are sound. -/
structure Sound (direct : Bool) (w : Workspace) (vs : List Variable) : Prop where
  cells : ∀ v ∈ vs, (w.intervals.get? v.cell).isSome
  distinct : (vs.map (·.cell)).Nodup
  models : ∀ r, SoundModel direct vs (w.models.get r)
  constraints : ∀ c, (w.constraints.get c).expression.Distinct

section

variable {direct : Bool} {w w' : Workspace} {vs vs' : List Variable} {m : Model} {v : Variable}

theorem soundModel_empty (name : Scalar) : SoundModel direct vs { name } where
  decisions := by simp
  index := by simp
  objectives := by simp
  names := by simp
  inStep := by simp

theorem SoundModel.mono (h : SoundModel direct vs m) (hvs : ∀ v ∈ vs, v ∈ vs') :
    SoundModel direct vs' m :=
  { h with decisions := fun v hv => hvs v (h.decisions v hv) }

/-- A model without a variable of a name has no such name in its index. -/
theorem SoundModel.lookup_index (h : SoundModel direct vs m) {name : String}
    (hname : name ∉ m.decisions.map (·.name)) : m.index.lookup name = none := by
  rw [List.lookup_eq_none_iff]
  intro entry hentry
  obtain ⟨hmem, heq⟩ := h.index entry hentry
  rw [bne_iff_ne]
  rintro rfl
  exact hname (heq ▸ List.mem_map_of_mem hmem)

/-- A model whose index and list are in step has no variable of a name that its index lacks. -/
theorem SoundModel.name_notMem (h : SoundModel false vs m) {name : String}
    (hname : m.index.lookup name = none) : name ∉ m.decisions.map (·.name) := by
  intro hmem
  obtain ⟨v, hv, rfl⟩ := List.mem_map.1 hmem
  rw [h.inStep rfl] at hname
  have := List.lookup_eq_none_iff.1 hname (v.name, v) (List.mem_map_of_mem hv)
  simp at this

theorem SoundModel.addVariable {m' : Model} (h : SoundModel direct vs m) (hv : v ∈ vs)
    (ha : m.addVariable v = .ok m') : SoundModel direct vs m' := by
  unfold Model.addVariable at ha
  split_ifs at ha with hl
  cases ha
  have hl := Option.not_isSome_iff_eq_none.1 hl
  refine ⟨?_, ?_, h.objectives, ?_, ?_⟩
  · intro u hu
    rcases List.mem_append.1 hu with hu | hu
    · exact h.decisions u hu
    · exact List.mem_singleton.1 hu ▸ hv
  · intro entry hentry
    rcases List.mem_append.1 hentry with hentry | hentry
    · exact ⟨List.mem_append_left _ (h.index entry hentry).1, (h.index entry hentry).2⟩
    · obtain rfl := List.mem_singleton.1 hentry
      exact ⟨List.mem_append_right _ List.mem_cons_self, rfl⟩
  · rintro rfl
    have hnew := h.name_notMem hl
    rw [List.map_append, List.nodup_append]
    refine ⟨h.names rfl, List.pairwise_singleton _ _, ?_⟩
    rintro a ha b hb rfl
    obtain rfl : a = v.name := List.mem_singleton.1 hb
    exact hnew ha
  · rintro rfl
    show m.index ++ [(v.name, v)] = _
    rw [h.inStep rfl, List.map_append]
    rfl

theorem SoundModel.appendVariable (h : SoundModel true vs m) (hv : v ∈ vs) :
    SoundModel true vs { m with decisions := m.decisions ++ [v] } where
  decisions u hu := by
    rcases List.mem_append.1 hu with hu | hu
    · exact h.decisions u hu
    · exact List.mem_singleton.1 hu ▸ hv
  index entry hentry :=
    ⟨List.mem_append_left _ (h.index entry hentry).1, (h.index entry hentry).2⟩
  objectives := h.objectives
  names := by simp
  inStep := by simp

theorem SoundModel.addObjective {o : Objective} (h : SoundModel direct vs m)
    (ho : o.expression.Distinct) : SoundModel direct vs (m.addObjective o) :=
  { h with
    objectives := fun o' ho' => by
      rcases List.mem_append.1 ho' with ho' | ho'
      · exact h.objectives o' ho'
      · exact List.mem_singleton.1 ho' ▸ ho }

theorem Sound.start : Sound direct {} [] where
  cells := by simp
  distinct := List.nodup_nil
  models _ := soundModel_empty _
  constraints _ := List.Pairwise.nil

/-! ### One operation -/

/-- A variable with a new name is added, and another one is refused. -/
theorem run_addVariable (r : Ref Model) (v : Variable) (w : Workspace) :
    (addVariable r v).run w =
      match (w.models.get r).addVariable v with
      | .ok m => (.ok (), { w with models := w.models.put r m })
      | .error fault => (.error fault, w) := by
  show (Action.of ((w.models.get r).addVariable v) >>= store r).run w = _
  rw [Action.run_bind, Action.run_of]
  cases (w.models.get r).addVariable v <;> rfl

/-- A variable gets a new cell, unless its request is refused. -/
theorem run_newVariable (request : Variable.Request) (w : Workspace) :
    (newVariable request).run w =
      match request.check with
      | .ok (interval, domain) => (.ok ⟨w.intervals.next, request.name, domain⟩,
          { w with intervals := w.intervals.push interval })
      | .error fault => (.error fault, w) := by
  show (Action.of (request.make w.intervals) >>= fun x => do
    set { w with intervals := x.2 }
    pure x.1).run w = _
  rw [Action.run_bind, Action.run_of, Variable.Request.make]
  cases request.check <;> rfl

theorem Sound.newVariable {request : Variable.Request} (h : Sound direct w vs)
    (hv : ((newVariable request).run w).1 = .ok v) :
    Sound direct ((newVariable request).after w) (v :: vs) := by
  unfold Action.after
  rw [run_newVariable] at hv ⊢
  split at hv
  · cases hv
    have hne : ∀ u ∈ vs, u.cell ≠ w.intervals.next :=
      fun u hu => Store.ne_next_of_get? (h.cells u hu)
    refine ⟨?_, ?_, fun r => (h.models r).mono fun u hu => List.mem_cons_of_mem _ hu, h.constraints⟩
    · intro u hu
      rcases List.mem_cons.1 hu with rfl | hu
      · rw [Store.get?_push_next]
        rfl
      · rw [Store.get?_push_of_ne _ (hne u hu)]
        exact h.cells u hu
    · rw [List.map_cons, List.nodup_cons]
      refine ⟨fun hmem => ?_, h.distinct⟩
      obtain ⟨u, hu, he⟩ := List.mem_map.1 hmem
      exact hne u hu he
  · cases hv

/-- Giving a model a sound content keeps a workspace sound. -/
theorem Sound.putModel (h : Sound direct w vs) (r : Ref Model) (hm : SoundModel direct vs m) :
    Sound direct { w with models := w.models.put r m } vs :=
  { h with models := Store.forall_get_put h.models hm }

theorem Sound.addVariable (h : Sound direct w vs) (r : Ref Model) (hv : v ∈ vs) :
    Sound direct ((addVariable r v).after w) vs := by
  unfold Action.after
  rw [run_addVariable]
  cases ha : (w.models.get r).addVariable v with
  | ok m' => exact h.putModel r ((h.models r).addVariable hv ha)
  | error fault => exact h

/-- **No operation breaks a sound workspace.** -/
theorem Sound.step (h : Sound direct w vs) (hstep : Step direct w vs w' vs') :
    Sound direct w' vs' := by
  cases hstep with
  | newVariable hv => exact h.newVariable hv
  | setBounds v lower upper =>
    exact { h with cells := fun u hu => (Store.isSome_get?_put _).trans (h.cells u hu) }
  | newConstraint hc =>
    exact { h with
      constraints := Store.forall_get_push (P := fun c : Constraint => c.expression.Distinct)
        h.constraints hc.distinct }
  | newModel name =>
    exact { h with models := Store.forall_get_push h.models (soundModel_empty _) }
  | addVariable r hv => exact h.addVariable r hv
  | addConstraint r c name =>
    have hm : SoundModel direct vs
        { w.models.get r with constraints := (w.models.get r).constraints ++ [c] } :=
      { h.models r with }
    exact { h.putModel r hm with
      constraints := Store.forall_get_put (P := fun c : Constraint => c.expression.Distinct)
        h.constraints (h.constraints c) }
  | addObjective r ho => exact h.putModel r ((h.models r).addObjective ho.distinct)
  | appendVariable r hd hv =>
    subst hd
    exact h.putModel r ((h.models r).appendVariable hv)
  | appendConstraint r c hd =>
    exact h.putModel r { h.models r with }
  | other hi hc hm => exact ⟨hi ▸ h.cells, h.distinct, hm ▸ h.models, hc ▸ h.constraints⟩

/-! ### All operations -/

/-- **Everything that operations lead to is sound.** -/
theorem Built.sound (h : Built direct w vs) : Sound direct w vs := by
  induction h with
  | start => exact .start
  | step _ hstep ih => exact ih.step hstep

/-- All variables have names, and all expressions were made by operations on expressions. -/
structure Constructed (w : Workspace) (vs : List Variable) : Prop where
  named : ∀ v ∈ vs, v.name ≠ ""
  objectives : ∀ r, ∀ o ∈ (w.models.get r).objectives, o.expression.Formed
  constraints : ∀ c, (w.constraints.get c).expression.Formed

theorem Constructed.putModel (h : Constructed w vs) (r : Ref Model)
    (hm : ∀ o ∈ m.objectives, o.expression.Formed) :
    Constructed { w with models := w.models.put r m } vs :=
  { h with
    objectives := Store.forall_get_put (P := fun m : Model => ∀ o ∈ m.objectives,
      o.expression.Formed) h.objectives hm }

theorem Constructed.newVariable {request : Variable.Request} (h : Constructed w vs)
    (hv : ((newVariable request).run w).1 = .ok v) :
    Constructed ((newVariable request).after w) (v :: vs) := by
  unfold Action.after
  rw [run_newVariable] at hv ⊢
  split at hv
  · next hcheck =>
    cases hv
    refine { h with named := List.forall_mem_cons.2 ⟨fun hname => ?_, h.named⟩ }
    unfold Variable.Request.check at hcheck
    rw [show request.name = "" from hname] at hcheck
    cases hcheck
  · cases hv

theorem Constructed.addVariable (h : Constructed w vs) (r : Ref Model) (v : Variable) :
    Constructed ((addVariable r v).after w) vs := by
  unfold Action.after
  rw [run_addVariable]
  cases ha : (w.models.get r).addVariable v with
  | error fault => exact h
  | ok m' =>
    unfold Model.addVariable at ha
    split_ifs at ha
    cases ha
    exact h.putModel r (h.objectives r)

theorem Constructed.step (h : Constructed w vs) (hstep : Step direct w vs w' vs') :
    Constructed w' vs' := by
  cases hstep with
  | newVariable hv => exact h.newVariable hv
  | setBounds v lower upper => exact { h with }
  | newConstraint hc =>
    exact { h with
      constraints := Store.forall_get_push (P := fun c : Constraint => c.expression.Formed)
        h.constraints hc }
  | newModel name =>
    exact { h with
      objectives := Store.forall_get_push (P := fun m : Model => ∀ o ∈ m.objectives,
        o.expression.Formed) h.objectives fun o ho => absurd ho List.not_mem_nil }
  | addVariable r hv => exact h.addVariable r _
  | addConstraint r c name =>
    have hm : ∀ o ∈ ({ w.models.get r with
        constraints := (w.models.get r).constraints ++ [c] } : Model).objectives,
        o.expression.Formed := h.objectives r
    exact { h.putModel r hm with
      constraints := Store.forall_get_put (P := fun c : Constraint => c.expression.Formed)
        h.constraints (h.constraints c) }
  | addObjective r ho =>
    refine h.putModel r fun o' ho' => ?_
    rcases List.mem_append.1 ho' with ho' | ho'
    · exact h.objectives r o' ho'
    · exact List.mem_singleton.1 ho' ▸ ho
  | appendVariable r hd hv => exact h.putModel r (h.objectives r)
  | appendConstraint r c hd => exact h.putModel r (h.objectives r)
  | other hi hc hm => exact ⟨h.named, hm ▸ h.objectives, hc ▸ h.constraints⟩

/-- **Everything in a workspace was constructed.** -/
theorem Built.constructed (h : Built direct w vs) : Constructed w vs := by
  induction h with
  | start =>
    exact ⟨by simp, fun r o ho => absurd ho List.not_mem_nil, fun c => .ofFloat 0.0⟩
  | step _ hstep ih => exact ih.step hstep

/-- Different variables of a model have different cells. -/
theorem Sound.nodup_cells (h : Sound direct w vs) {r : Ref Model}
    (hnodup : (w.models.get r).decisions.Nodup) :
    ((w.models.get r).decisions.map (·.cell)).Nodup :=
  hnodup.map_on fun u hu v hv => List.inj_on_of_nodup_map h.distinct
    ((h.models r).decisions u hu) ((h.models r).decisions v hv)

/-- A model that was never extended directly has no variable twice. -/
theorem Sound.nodup_decisions (h : Sound false w vs) (r : Ref Model) :
    (w.models.get r).decisions.Nodup :=
  ((h.models r).names rfl).of_map

end

/-! ### A sample -/

/-- A model of an integer variable between zero and one and a continuous variable, with a constraint
that takes a factor given as an integer, and an objective with a constant. -/
def sample : Workspace :=
  let n : Variable := ⟨⟨0⟩, "n", .integer⟩
  let x : Variable := ⟨⟨1⟩, "x", .continuous⟩
  let limit := .ofFactors [(.first n, .integer 2), (.first x, .real 1.0)] 0.0
  let w := (newVariable { name := "n", upper := .integer 1, domain := .text "integer" }).after {}
  let w := (newVariable { name := "x" }).after w
  let w := (newModel (.empty (.text "sample"))).after w
  let w := (addVariable ⟨0⟩ n).after w
  let w := (addVariable ⟨0⟩ x).after w
  let w := (newConstraint ⟨limit, none, Decimal.negativeInfinity, 3.0⟩).after w
  let w := (addConstraint ⟨0⟩ ⟨0⟩ none).after w
  (addObjective ⟨0⟩ ⟨.ofFactors [(.first x, .real 1.0)] 0.5, "z", .maximize⟩).after w

/-- The variables of the sample, the last one first. -/
def sampleVariables : List Variable := [⟨⟨1⟩, "x", .continuous⟩, ⟨⟨0⟩, "n", .integer⟩]

theorem sample_built : Built false sample sampleVariables := by
  refine .step ?_ (.addObjective _ (.ofFactors _ _))
  refine .step ?_ (.addConstraint _ _ _)
  refine .step ?_ (.newConstraint (.ofFactors _ _))
  refine .step ?_ (.addVariable _ (by simp [sampleVariables]))
  refine .step ?_ (.addVariable _ (by simp [sampleVariables]))
  refine .step ?_ (.newModel _)
  refine .step ?_ (.newVariable rfl)
  exact .step .start (.newVariable rfl)

/-- The sample with a solver. -/
def sampleWithSolver : Workspace := (Solver.create {}).after sample

theorem sampleWithSolver_built : Built false sampleWithSolver sampleVariables :=
  .step sample_built (.other rfl rfl rfl)

/-- An engine that finds the same for every problem. -/
def constantEngine (o : Outcome) : Engine where
  simplex _ _ := { outcome := o }
  search _ _ := { outcome := o }
  read _ _ := .done none

end Optimization.Modeling
