import Optimization.Overrides
import Optimization.Proofs.Runs

/-!
# Bounds under overrides

Overrides overwrite bounds and put them back in the order in which they were saved, which undoes
the overwriting as long as no two variables share a cell.

* `restore_fix` : all bounds are as they were, also when a value in the middle was refused;
* `get_fix` : what the bounds are in between;
* `fix_congr` : only the bounds of the variables at hand are looked at.
-/

namespace Optimization.Overrides

variable {values : Overrides} {vs : List Variable} {s s' : Store Interval} {v : Variable}

/-! ### One variable -/

theorem fix_cons_none (rest : List Variable) (h : values.lookup v.name = none) :
    fix values (v :: rest) s = fix values rest s := by
  rw [fix, h]

theorem fix_cons_error (rest : List Variable) {x : Scalar} {fault : Fault}
    (h : values.lookup v.name = some x) (hx : x.toFloat = .error fault) :
    fix values (v :: rest) s = ([], s, some fault) := by
  simp only [fix, h, hx]

theorem fix_cons_ok (rest : List Variable) {x : Scalar} {y : Float}
    (h : values.lookup v.name = some x) (hx : x.toFloat = .ok y) :
    fix values (v :: rest) s =
      ((v.cell, s.get v.cell) :: (fix values rest (s.put v.cell (point y))).1,
        (fix values rest (s.put v.cell (point y))).2) := by
  simp only [fix, h, hx]

/-- Without overrides all bounds stay. -/
@[simp] theorem fix_nil (vs : List Variable) (s : Store Interval) :
    fix [] vs s = ([], s, none) := by
  induction vs with
  | nil => rfl
  | cons v vs ih => rw [fix_cons_none vs rfl, ih]

/-! ### Restoring -/

/-- Bounds are only saved for the variables at hand. -/
theorem mem_cells_of_mem_saved {c : Ref Interval}
    (h : c ∈ (fix values vs s).1.map Prod.fst) : c ∈ vs.map (·.cell) := by
  induction vs generalizing s with
  | nil => simp [fix] at h
  | cons v rest ih =>
    cases hl : values.lookup v.name with
    | none =>
      rw [fix_cons_none rest hl] at h
      exact List.mem_cons_of_mem _ (ih h)
    | some x =>
      cases hx : x.toFloat with
      | error fault => simp [fix_cons_error rest hl hx] at h
      | ok y =>
        rw [fix_cons_ok rest hl hx, List.map_cons, List.mem_cons] at h
        rcases h with rfl | h
        · exact List.mem_cons_self
        · exact List.mem_cons_of_mem _ (ih h)

/-- A cell that was not saved keeps what it is given before the others are put back. -/
theorem restore_put {saved : Saved} {c : Ref Interval} (b : Interval)
    (h : c ∉ saved.map Prod.fst) : restore saved (s.put c b) = (restore saved s).put c b := by
  induction saved generalizing s with
  | nil => rfl
  | cons entry saved ih =>
    obtain ⟨c', b'⟩ := entry
    rw [List.map_cons, List.mem_cons, not_or] at h
    show restore saved ((s.put c b).put c' b') = (restore saved (s.put c' b')).put c b
    rw [Store.put_comm _ _ h.1, ih h.2]

/-- **Putting the saved bounds back undoes the overwriting.** -/
theorem restore_fix (values : Overrides) (s : Store Interval) (h : (vs.map (·.cell)).Nodup) :
    restore (fix values vs s).1 (fix values vs s).2.1 = s := by
  induction vs generalizing s with
  | nil => rfl
  | cons v rest ih =>
    rw [List.map_cons, List.nodup_cons] at h
    cases hl : values.lookup v.name with
    | none => rw [fix_cons_none rest hl, ih s h.2]
    | some x =>
      cases hx : x.toFloat with
      | error fault =>
        rw [fix_cons_error rest hl hx]
        rfl
      | ok y =>
        rw [fix_cons_ok rest hl hx]
        -- the bounds of `v` are put back first, and no later cell is that of `v`
        show restore (fix values rest (s.put v.cell (point y))).1
          ((fix values rest (s.put v.cell (point y))).2.1.put v.cell (s.get v.cell)) = s
        rw [restore_put _ fun hc => h.1 (mem_cells_of_mem_saved hc), ih _ h.2, Store.put_put,
          Store.put_get]

/-! ### In between -/

/-- The bounds of a variable while overrides last. -/
def effective (values : Overrides) (s : Store Interval) (v : Variable) : Interval :=
  match values.lookup v.name with
  | none => s.get v.cell
  | some x =>
    match x.toFloat with
    | .ok y => point y
    | .error _ => s.get v.cell

theorem get?_fix_of_notMem {c : Ref Interval} (h : c ∉ vs.map (·.cell)) :
    (fix values vs s).2.1.get? c = s.get? c := by
  induction vs generalizing s with
  | nil => rfl
  | cons v rest ih =>
    rw [List.map_cons, List.mem_cons, not_or] at h
    cases hl : values.lookup v.name with
    | none => rw [fix_cons_none rest hl, ih h.2]
    | some x =>
      cases hx : x.toFloat with
      | error fault => rw [fix_cons_error rest hl hx]
      | ok y => rw [fix_cons_ok rest hl hx, ih h.2, Store.get?_put_of_ne _ h.1]

/-- A variable that is not overwritten keeps its effective bounds. -/
theorem effective_put {c : Ref Interval} (b : Interval) (h : v.cell ≠ c) :
    effective values (s.put c b) v = effective values s v := by
  unfold effective
  rw [Store.get_congr (Store.get?_put_of_ne b h)]

/-- While overrides last, all variables have their effective bounds. -/
theorem get_fix (hc : (vs.map (·.cell)).Nodup) (hs : ∀ v ∈ vs, (s.get? v.cell).isSome)
    (hf : (fix values vs s).2.2 = none) (hv : v ∈ vs) :
    (fix values vs s).2.1.get v.cell = effective values s v := by
  induction vs generalizing s with
  | nil => simp at hv
  | cons u rest ih =>
    rw [List.map_cons, List.nodup_cons] at hc
    obtain ⟨hu, hc⟩ := hc
    have hs' := fun v hv => hs v (List.mem_cons_of_mem u hv)
    cases hl : values.lookup u.name with
    | none =>
      rw [fix_cons_none rest hl] at hf ⊢
      rcases List.mem_cons.1 hv with rfl | hv
      · rw [Store.get_congr (get?_fix_of_notMem hu), effective, hl]
      · exact ih hc hs' hf hv
    | some x =>
      cases hx : x.toFloat with
      | error fault => simp [fix_cons_error rest hl hx] at hf
      | ok y =>
        rw [fix_cons_ok rest hl hx] at hf ⊢
        rcases List.mem_cons.1 hv with rfl | hv
        · -- `v` was overwritten here, and not again afterwards
          obtain ⟨b, hb⟩ := Option.isSome_iff_exists.1 (hs v List.mem_cons_self)
          rw [Store.get_congr (get?_fix_of_notMem hu), Store.get_of_get? (Store.get?_put_self hb)]
          simp only [effective, hl, hx]
        · have hne : v.cell ≠ u.cell := fun e => hu (e ▸ List.mem_map_of_mem hv)
          have := ih hc (fun w hw => by rw [Store.isSome_get?_put]; exact hs' w hw) hf hv
          rw [this, effective_put _ hne]

/-- Values of variables are only accepted when they are numbers. -/
theorem exists_toFloat_of_fix (hf : (fix values vs s).2.2 = none) (hv : v ∈ vs) {x : Scalar}
    (hx : values.lookup v.name = some x) : ∃ y, x.toFloat = .ok y := by
  induction vs generalizing s with
  | nil => simp at hv
  | cons u rest ih =>
    cases hl : values.lookup u.name with
    | none =>
      rw [fix_cons_none rest hl] at hf
      rcases List.mem_cons.1 hv with rfl | hv
      · simp [hl] at hx
      · exact ih hf hv
    | some z =>
      cases hz : z.toFloat with
      | error fault => simp [fix_cons_error rest hl hz] at hf
      | ok y =>
        rw [fix_cons_ok rest hl hz] at hf
        rcases List.mem_cons.1 hv with rfl | hv
        · rw [hl, Option.some.injEq] at hx
          exact ⟨y, hx ▸ hz⟩
        · exact ih hf hv

/-! ### What is looked at -/

/-- Two stores hold the same in some cells. -/
def Agree (cells : List (Ref Interval)) (s s' : Store Interval) : Prop :=
  ∀ c ∈ cells, s'.get? c = s.get? c

theorem Agree.put {cells : List (Ref Interval)} (h : Agree cells s s') {c : Ref Interval}
    (hc : c ∈ cells) (b : Interval) : Agree cells (s.put c b) (s'.put c b) := by
  intro d hd
  by_cases e : d = c
  · subst e
    have := h d hd
    cases hs : s.get? d with
    | some x =>
      rw [hs] at this
      rw [Store.get?_put_self hs, Store.get?_put_self this]
    | none => rw [Store.get?_put_of_none b hs, Store.get?_put_of_none b (this.trans hs)]
  · rw [Store.get?_put_of_ne b e, Store.get?_put_of_ne b e, h d hd]

/-- Overwriting looks at the bounds of its variables only. -/
theorem fix_congr (values : Overrides) {cells : List (Ref Interval)} (h : Agree cells s s')
    (hv : ∀ v ∈ vs, v.cell ∈ cells) :
    Agree cells (fix values vs s).2.1 (fix values vs s').2.1 ∧
      (fix values vs s').2.2 = (fix values vs s).2.2 := by
  induction vs generalizing s s' with
  | nil => exact ⟨h, rfl⟩
  | cons v rest ih =>
    have hrest := fun u hu => hv u (List.mem_cons_of_mem v hu)
    cases hl : values.lookup v.name with
    | none => simpa only [fix_cons_none rest hl] using ih h hrest
    | some x =>
      cases hx : x.toFloat with
      | error fault => simpa only [fix_cons_error rest hl hx] using ⟨h, trivial⟩
      | ok y =>
        simpa only [fix_cons_ok rest hl hx] using ih (h.put (hv v List.mem_cons_self) _) hrest

/-! ### Runs -/

/-- Names that no variable has are noted, and nothing else happens. -/
theorem noteUnknown_ends (values : Overrides) (vs : List Variable) (w : Workspace) :
    (noteUnknown values vs).Ends w (.ok ()) fun w' => ∃ journal, w' = { w with journal } := by
  unfold noteUnknown
  cases h : (unknownNames values vs).isEmpty with
  | true => exact .of_run (by simp only [h]; rfl) ⟨w.journal, rfl⟩
  | false => exact .of_run (by simp only [h]; rfl) ⟨_, rfl⟩

/-- The outcome of what is done with the bounds while overrides last. -/
def underway {α : Type} (values : Overrides) (vs : List Variable) (s : Store Interval)
    (f : Store Interval → Except Fault α) : Except Fault α :=
  match (fix values vs s).2.2 with
  | some fault => .error fault
  | none => f (fix values vs s).2.1

/-- What an action that looks at the bounds while overrides last leaves behind. -/
theorem during_run {α : Type} (values : Overrides) (vs : List Variable)
    (f : Store Interval → Except Fault α) (w : Workspace) :
    ∃ journal, (during values vs do
        let w ← get
        Action.of (f w.intervals)).run w =
      (underway values vs w.intervals f, { w with
        intervals := restore (fix values vs w.intervals).1 (fix values vs w.intervals).2.1
        journal }) := by
  have hrun : ∀ body : Action α, (during values vs body).run w =
      ((match (fix values vs w.intervals).2.2 with
        | some fault => throw fault
        | none => do noteUnknown values vs; body : Action α).ensuring fun w' =>
          { w' with intervals := restore (fix values vs w.intervals).1 w'.intervals }).run
        { w with intervals := (fix values vs w.intervals).2.1 } := fun body => rfl
  rw [hrun, underway]
  cases hf : (fix values vs w.intervals).2.2 with
  | some fault =>
    refine ⟨w.journal, ?_⟩
    rw [Action.run_ensuring, Action.run_throw]
  | none =>
    obtain ⟨_, hnote, journal, rfl⟩ := (noteUnknown_ends values vs
      { w with intervals := (fix values vs w.intervals).2.1 }).exists_run
    refine ⟨journal, ?_⟩
    rw [Action.run_ensuring, Action.run_bind_of_ok _ hnote]
    rfl

/-- **An action that looks at the bounds while overrides last changes nothing but the journal.** -/
theorem during_ends {α : Type} (f : Store Interval → Except Fault α) (w : Workspace)
    (h : (vs.map (·.cell)).Nodup) :
    (during values vs do
        let w ← get
        Action.of (f w.intervals)).Ends w (underway values vs w.intervals f)
      fun w' => ∃ journal, w' = { w with journal } := by
  obtain ⟨journal, hrun⟩ := during_run values vs f w
  rw [restore_fix values w.intervals h] at hrun
  exact .of_run hrun ⟨journal, rfl⟩

end Optimization.Overrides
