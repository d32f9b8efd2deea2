import Optimization.Problem.Lifetime

/-!
# Runs of actions

What the steps of an action do to a workspace, and how the outcomes of the steps make up the
outcome of the whole.

* `Ends x w r Q` : the action `x` has the outcome `r` and leaves a workspace of which `Q` holds,
  also when `r` is a refusal;
* `Ends.bind` : an action runs step by step beside a computation that changes nothing;
* `Along R x` : whatever becomes of the action `x`, it leaves a workspace that is related by `R` to
  the one before.
-/

namespace Optimization

/-- A computation gives a result when its first step does and the rest goes on from there. -/
theorem bind_eq_ok {α β : Type} {x : Except Fault α} {f : α → Except Fault β} {b : β} :
    x >>= f = .ok b ↔ ∃ a, x = .ok a ∧ f a = .ok b := by
  cases x with
  | ok a =>
    constructor
    · exact fun h => ⟨a, rfl, h⟩
    · rintro ⟨a', h, hf⟩
      cases h
      exact hf
  | error fault =>
    constructor
    · intro h
      cases h
    · rintro ⟨a, h, -⟩
      cases h

namespace Action

variable {α β : Type} {w w' : Workspace}

/-- The workspace that an action leaves. -/
def after (x : Action α) (w : Workspace) : Workspace := (x.run w).2

/-! ### Single steps -/

@[simp] theorem run_get (w : Workspace) : (get : Action Workspace).run w = (.ok w, w) := rfl

@[simp] theorem run_modify (f : Workspace → Workspace) (w : Workspace) :
    (modify f : Action PUnit).run w = (.ok ⟨⟩, f w) := rfl

@[simp] theorem run_throw (fault : Fault) (w : Workspace) :
    (throw fault : Action α).run w = (.error fault, w) := rfl

@[simp] theorem run_attempt (x : Action α) (w : Workspace) :
    x.attempt.run w = (.ok (x.run w).1, (x.run w).2) := rfl

/-- After a step that is done comes the rest. -/
theorem run_bind_of_ok {x : Action α} {a : α} (f : α → Action β) (h : x.run w = (.ok a, w')) :
    (x >>= f).run w = (f a).run w' := by
  rw [run_bind, h]

/-- After a step that is refused comes nothing. -/
theorem run_bind_of_error {x : Action α} {fault : Fault} (f : α → Action β)
    (h : x.run w = (.error fault, w')) : (x >>= f).run w = (.error fault, w') := by
  rw [run_bind, h]

/-- An action that is done had its first step done. -/
theorem run_bind_eq_ok {x : Action α} {f : α → Action β} {b : β}
    (h : (x >>= f).run w = (.ok b, w')) :
    ∃ a v, x.run w = (.ok a, v) ∧ (f a).run v = (.ok b, w') := by
  rw [run_bind] at h
  rcases hx : x.run w with ⟨_ | a, v⟩
  · rw [hx] at h
    cases h
  · rw [hx] at h
    exact ⟨a, v, rfl, h⟩

/-- So it is when the first step is a computation. -/
theorem of_bind_eq_ok {x : Except Fault α} {f : α → Action β} {b : β}
    (h : (of x >>= f).run w = (.ok b, w')) : ∃ a, x = .ok a ∧ (f a).run w = (.ok b, w') := by
  obtain ⟨a, v, hx, hf⟩ := run_bind_eq_ok h
  cases hx
  exact ⟨a, rfl, hf⟩

/-- Before the last step comes the action itself, with the same outcome. -/
theorem exists_run_of_ensuring {x : Action α} {last : Workspace → Workspace} {r : Except Fault α}
    (h : (x.ensuring last).run w = (r, w')) : ∃ v, x.run w = (r, v) ∧ w' = last v := by
  rw [run_ensuring] at h
  cases h
  exact ⟨_, rfl, rfl⟩

/-! ### Ends of actions -/

/-- The outcome of an action, and what holds of the workspace that it leaves. -/
structure Ends (x : Action α) (w : Workspace) (r : Except Fault α) (Q : Workspace → Prop) :
    Prop where
  outcome : (x.run w).1 = r
  after : Q (x.run w).2

namespace Ends

variable {x : Action α} {r : Except Fault α} {P Q : Workspace → Prop}

theorem of_run (h : x.run w = (r, w')) (hQ : Q w') : Ends x w r Q := by
  constructor <;> rw [h]
  exact hQ

theorem exists_run (h : Ends x w r Q) : ∃ w', x.run w = (r, w') ∧ Q w' :=
  ⟨(x.run w).2, Prod.ext h.outcome rfl, h.after⟩

theorem mono (h : Ends x w r P) (hPQ : ∀ w', P w' → Q w') : Ends x w r Q :=
  ⟨h.outcome, hPQ _ h.after⟩

theorem pure (a : α) (hQ : Q w) : Ends (Pure.pure a : Action α) w (.ok a) Q := of_run rfl hQ

/-- A step whose run is known. -/
theorem step {a : α} {f : α → Action β} {r : Except Fault β} (h : x.run w = (.ok a, w'))
    (hf : Ends (f a) w' r Q) : Ends (x >>= f) w r Q := by
  obtain ⟨w'', h', hQ⟩ := hf.exists_run
  exact of_run ((run_bind_of_ok f h).trans h') hQ

/-- A step that is done. -/
theorem bind_ok {a : α} {f : α → Action β} {r : Except Fault β} (hx : Ends x w (.ok a) P)
    (hf : ∀ w', P w' → Ends (f a) w' r Q) : Ends (x >>= f) w r Q := by
  obtain ⟨w', h, hP⟩ := hx.exists_run
  exact step h (hf w' hP)

/-- A step that is refused. -/
theorem bind_error {fault : Fault} {f : α → Action β} (hx : Ends x w (.error fault) Q) :
    Ends (x >>= f) w (.error fault) Q := by
  obtain ⟨w', h, hQ⟩ := hx.exists_run
  exact of_run (run_bind_of_error f h) hQ

/-- A step of an action beside a step of a computation; a refusal must leave what is asked of the
end. -/
theorem bind {f : α → Action β} {g : α → Except Fault β} (hx : Ends x w r P)
    (hf : ∀ a w', r = .ok a → P w' → Ends (f a) w' (g a) Q) (he : ∀ w', P w' → Q w') :
    Ends (x >>= f) w (r >>= g) Q := by
  cases r with
  | ok a => exact bind_ok hx fun w' hP => hf a w' rfl hP
  | error fault => exact bind_error (hx.mono he)

/-- A last step that is done on every exit. -/
theorem ensuring (h : Ends x w r P) (last : Workspace → Workspace) (hQ : ∀ w', P w' → Q (last w')) :
    Ends (x.ensuring last) w r Q :=
  ⟨h.outcome, hQ _ h.after⟩

/-- Steps that keep a property, one for each item of a list. -/
theorem forM {ι : Type} {xs : List ι} {f : ι → Action PUnit} (hw : Q w)
    (hf : ∀ i ∈ xs, ∀ w', Q w' → Ends (f i) w' (.ok ⟨⟩) Q) : Ends (xs.forM f) w (.ok ⟨⟩) Q := by
  induction xs generalizing w with
  | nil => exact of_run rfl hw
  | cons i xs ih =>
    refine bind_ok (hf i List.mem_cons_self w hw) fun w' hw' => ih hw' fun j hj => ?_
    exact hf j (List.mem_cons_of_mem i hj)

end Ends

/-! ### Relations along runs -/

/-- A relation that holds when nothing happens, and from the first workspace to the last one when
several things happen. -/
class Steady (R : Workspace → Workspace → Prop) : Prop where
  refl : ∀ w, R w w
  trans : ∀ {u v w}, R u v → R v w → R u w

/-- Whatever becomes of an action, the workspace that it leaves is related to the one before. -/
def Along (R : Workspace → Workspace → Prop) (x : Action α) : Prop := ∀ w, R w (x.after w)

namespace Along

variable {R : Workspace → Workspace → Prop} {x : Action α}

theorem ite {c : Prop} [Decidable c] {y : Action α} (hx : Along R x) (hy : Along R y) :
    Along R (if c then x else y) := by
  split
  · exact hx
  · exact hy

variable [Steady R]

/-- An action that changes nothing. -/
theorem of_after (h : ∀ w, x.after w = w) : Along R x := by
  intro w
  rw [h w]
  exact Steady.refl w

theorem of (x : Except Fault α) : Along R (Action.of x) := of_after fun _ => rfl

theorem pure (a : α) : Along R (Pure.pure a) := of_after fun _ => rfl

theorem throw (fault : Fault) : Along R (MonadExcept.throw fault : Action α) :=
  of_after fun _ => rfl

/-- What is related to the workspace after the first step is related to the one after the rest. -/
theorem after_bind {f : α → Action β} {w v : Workspace} (hx : R w (x.after v))
    (hf : ∀ a, Along R (f a)) : R w ((x >>= f).after v) := by
  unfold after at hx ⊢
  rcases hrun : x.run v with ⟨fault | a, u⟩ <;> rw [hrun] at hx
  · rw [run_bind_of_error _ hrun]
    exact hx
  · rw [run_bind_of_ok _ hrun]
    exact Steady.trans hx (hf a u)

theorem bind {f : α → Action β} (hx : Along R x) (hf : ∀ a, Along R (f a)) :
    Along R (x >>= f) := fun w => after_bind (hx w) hf

theorem forM {ι : Type} {f : ι → Action PUnit} (hf : ∀ i, Along R (f i)) (xs : List ι) :
    Along R (xs.forM f) := by
  induction xs with
  | nil => exact pure _
  | cons i xs ih => exact bind (hf i) fun _ => ih

theorem mapM {ι : Type} {f : ι → Action α} (hf : ∀ i, Along R (f i)) (xs : List ι) :
    Along R (xs.mapM f) := by
  induction xs with
  | nil => exact pure _
  | cons i xs ih =>
    rw [List.mapM_cons]
    exact bind (hf i) fun _ => bind ih fun _ => pure _

end Along

end Action

namespace Problem

/-! ### Problems of the workspace -/

theorem live_run {r : Ref Lifetime} {p : Problem} {w : Workspace}
    (h : w.problems.get? r = some (.live p)) : (live r).run w = (.ok p, w) := by
  rw [live, Action.run_bind_of_ok _ (Action.run_get w), Store.get_of_get? h]
  rfl

/-- Without a live problem in a cell there is nothing to work on. -/
theorem live_run_of_not_live {r : Ref Lifetime} {w : Workspace}
    (h : ¬∃ p, w.problems.get? r = some (.live p)) : (live r).run w = (.error .freed, w) := by
  rw [live, Action.run_bind_of_ok _ (Action.run_get w)]
  cases hcell : w.problems.get r with
  | freed => rfl
  | live p =>
    cases hget : w.problems.get? r with
    | none => simp [Store.get, hget, default] at hcell
    | some x =>
      rw [Store.get_of_get? hget] at hcell
      exact absurd ⟨p, hcell ▸ hget⟩ h

theorem change_run {r : Ref Lifetime} {p : Problem} {w : Workspace} (f : Problem → Problem)
    (h : w.problems.get? r = some (.live p)) :
    (change r f).run w =
      (.ok (), { w with problems := w.problems.put r (.live (f p)) }) := by
  rw [change, Action.run_bind_of_ok _ (live_run h)]
  rfl

end Problem

end Optimization
