import Optimization.Translation
import Optimization.Proofs.Overriding

/-!
# Translations as computations

A translation overwrites bounds and puts them back. Seen from outside it is a computation that
changes nothing.

* `checkModel_eq_ok_iff` : what the check asks of a model;
* `translate_ends` : a translation has a computed outcome and leaves the bounds alone;
* `computed_congr` : the outcome depends on the model's own bounds and constraints only.
-/

namespace Optimization.Translation

variable {m : Model} {values : Overrides} {cs cs' : Store Constraint} {s s' : Store Interval}
  {p : Problem}

/-! ### The check -/

theorem nonlinearTerm?_eq_none_iff {e : Expression} :
    nonlinearTerm? e = none ↔ e.isLinear = true := by
  unfold nonlinearTerm? Expression.terms Expression.isLinear
  simp

theorem checkObjectives_eq_ok_iff {objectives : List Objective} :
    checkObjectives objectives = .ok () ↔ ∀ o ∈ objectives, o.expression.isLinear = true := by
  simp only [← nonlinearTerm?_eq_none_iff]
  rw [← List.findSome?_eq_none_iff, checkObjectives]
  split
  · next h => simp [h]
  · next h => exact iff_of_true rfl h

theorem checkConstraints_eq_ok_iff {constraints : List Constraint} :
    checkConstraints constraints = .ok () ↔
      ∀ c ∈ constraints, c.expression.isLinear = true := by
  have hfault : ∀ c : Constraint, c.expression.isLinear = true ↔ constraintFault? c = none := by
    intro c
    rw [constraintFault?, Option.map_eq_none_iff, nonlinearTerm?_eq_none_iff]
  simp only [hfault]
  rw [← List.findSome?_eq_none_iff, checkConstraints]
  split
  · next h => simp [h]
  · next h => exact iff_of_true rfl h

/-- **The check asks for at most one objective and for linear terms.** -/
theorem checkModel_eq_ok_iff : checkModel m cs = .ok () ↔
    m.objectives.length ≤ 1 ∧ (∀ o ∈ m.objectives, o.expression.isLinear = true) ∧
      ∀ r ∈ m.constraints, (cs.get r).expression.isLinear = true := by
  have hconstraints : checkConstraints (m.constraints.map cs.get) = .ok () ↔
      ∀ r ∈ m.constraints, (cs.get r).expression.isLinear = true := by
    rw [checkConstraints_eq_ok_iff, List.forall_mem_map]
  rw [← checkObjectives_eq_ok_iff, ← hconstraints, ← Nat.not_lt]
  unfold checkModel
  split
  · next h => exact iff_of_false nofun fun hall => hall.1 h
  · next h =>
    rw [and_iff_right h]
    show (checkObjectives m.objectives >>= fun _ => _) = _ ↔ _
    rw [bind_eq_ok]
    exact ⟨fun ⟨_, hchecks⟩ => hchecks, fun hchecks => ⟨(), hchecks⟩⟩

/-- All reasons for which the check refuses a model are of one sort. -/
theorem category_of_checkModel {fault : Fault} (h : checkModel m cs = .error fault) :
    fault.category = .value := by
  unfold checkModel at h
  split at h
  · cases h
    rfl
  · cases hobjectives : checkObjectives m.objectives with
    | error fault' =>
      rw [hobjectives] at h
      cases h
      unfold checkObjectives at hobjectives
      split at hobjectives <;> cases hobjectives
      rfl
    | ok =>
      rw [hobjectives] at h
      have hconstraints : checkConstraints (m.constraints.map cs.get) = .error fault := h
      unfold checkConstraints at hconstraints
      split at hconstraints <;> cases hconstraints
      next hfault =>
        obtain ⟨c, -, hc⟩ := List.exists_of_findSome?_eq_some hfault
        obtain ⟨t, -, rfl⟩ := Option.map_eq_some_iff.1 hc
        rfl

/-! ### The whole -/

/-- The outcome of a translation. -/
def computed (m : Model) (values : Overrides) (cs : Store Constraint) (s : Store Interval)
    (p : Problem) : Except Fault (Problem × Translation) := do
  complete m cs (← Overrides.underway values m.decisions s fun s => columns m s p)

/-- **A translation has its computed outcome and changes nothing but the journal.** -/
theorem translate_ends (values : Overrides) (h : (m.decisions.map (·.cell)).Nodup) (w : Workspace)
    (p : Problem) :
    (translate m values p).Ends w (computed m values w.constraints w.intervals p)
      fun w' => ∃ journal, w' = { w with journal } := by
  unfold translate computed
  refine (Overrides.during_ends (fun s => columns m s p) w h).bind ?_ fun _ h => h
  rintro pm _ - ⟨journal, rfl⟩
  exact .of_run rfl ⟨journal, rfl⟩

/-- Whichever cells the variables have, the outcome is the computed one. -/
theorem translate_outcome (m : Model) (values : Overrides) (w : Workspace) (p : Problem) :
    ((translate m values p).run w).1 = computed m values w.constraints w.intervals p := by
  obtain ⟨journal, hrun⟩ := Overrides.during_run values m.decisions (fun s => columns m s p) w
  unfold translate computed
  cases hcolumns : Overrides.underway values m.decisions w.intervals fun s => columns m s p with
  | error fault =>
    rw [hcolumns] at hrun
    rw [Action.run_bind_of_error _ hrun]
    rfl
  | ok pm =>
    rw [hcolumns] at hrun
    rw [Action.run_bind_of_ok _ hrun]
    rfl

theorem computed_of_translate {w w' : Workspace} {pt : Problem × Translation}
    (hcells : (m.decisions.map (·.cell)).Nodup)
    (h : (translate m values p).run w = (.ok pt, w')) :
    computed m values w.constraints w.intervals p = .ok pt := by
  have houtcome := (translate_ends values hcells w p).outcome
  rw [h] at houtcome
  exact houtcome.symm

/-! ### What is looked at -/

theorem foldlM_congr {α β : Type} {f g : β → α → Except Fault β} {xs : List α}
    (h : ∀ x ∈ xs, ∀ b, f b x = g b x) (b : β) : xs.foldlM f b = xs.foldlM g b := by
  induction xs generalizing b with
  | nil => rfl
  | cons x xs ih =>
    rw [List.foldlM_cons, List.foldlM_cons, h x List.mem_cons_self]
    congr 1
    funext b'
    exact ih (fun y hy => h y (List.mem_cons_of_mem x hy)) b'

theorem columns_congr (h : ∀ v ∈ m.decisions, s'.get? v.cell = s.get? v.cell) :
    columns m s' p = columns m s p := by
  refine foldlM_congr (fun v hv pm => ?_) _
  unfold putColumn
  rw [Store.get_congr (h v hv)]

theorem complete_congr (h : ∀ c ∈ m.constraints, cs'.get? c = cs.get? c) :
    complete m cs' = complete m cs := by
  have hrows : rows m cs' = rows m cs := by
    funext map p
    refine foldlM_congr (fun c hc st => ?_) _
    unfold putRow
    rw [Store.get_congr (h c hc)]
  funext pm
  unfold complete
  rw [hrows]

theorem checkModel_congr (h : ∀ c ∈ m.constraints, cs'.get? c = cs.get? c) :
    checkModel m cs' = checkModel m cs := by
  unfold checkModel
  rw [List.map_congr_left fun c hc => Store.get_congr (h c hc)]

/-- A translation looks at the bounds of the model's variables and at the model's constraints
only. -/
theorem computed_congr (hs : ∀ v ∈ m.decisions, s'.get? v.cell = s.get? v.cell)
    (hc : ∀ c ∈ m.constraints, cs'.get? c = cs.get? c) :
    computed m values cs' s' p = computed m values cs s p := by
  have hcells : Overrides.Agree (m.decisions.map (·.cell)) s s' := by
    intro c h
    obtain ⟨v, hv, rfl⟩ := List.mem_map.1 h
    exact hs v hv
  obtain ⟨hin, hf⟩ := Overrides.fix_congr values hcells
    fun v hv => List.mem_map_of_mem hv
  have hcolumns : columns m (values.fix m.decisions s').2.1 p =
      columns m (values.fix m.decisions s).2.1 p :=
    columns_congr fun v hv => hin _ (List.mem_map_of_mem hv)
  unfold computed Overrides.underway
  simp only [complete_congr hc, hf, hcolumns]

end Optimization.Translation
