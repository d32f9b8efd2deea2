/-!
# Stores of cells that can change

Parts of a model that change after they were made are kept in a store and named by references.
A reference stays valid: cells are added and overwritten, never removed.
-/

namespace Optimization

/-- The name of a cell of a store. -/
@[ext] structure Ref (α : Type) where
  index : Nat

instance {α : Type} : DecidableEq (Ref α) := fun r s =>
  decidable_of_iff (r.index = s.index) Ref.ext_iff.symm

/-- Cells in the order in which they were made. -/
structure Store (α : Type) where
  cells : Array α := #[]

namespace Store

variable {α : Type}

/-- The content of a cell. -/
def get? (s : Store α) (r : Ref α) : Option α := s.cells[r.index]?

/-- The content of a cell, a default for a reference of another store. -/
def get [Inhabited α] (s : Store α) (r : Ref α) : α := (s.get? r).getD default

/-- Overwrite a cell. -/
def put (s : Store α) (r : Ref α) (x : α) : Store α := ⟨s.cells.setIfInBounds r.index x⟩

/-- The reference that the next new cell will have. -/
def next (s : Store α) : Ref α := ⟨s.cells.size⟩

/-- Add a cell; its reference is `next`. -/
def push (s : Store α) (x : α) : Store α := ⟨s.cells.push x⟩

@[simp] theorem get?_push_next (s : Store α) (x : α) : (s.push x).get? s.next = some x := by
  simp [get?, push, next]

@[simp] theorem get?_next (s : Store α) : s.get? s.next = none := by simp [get?, next]

theorem get?_push_of_ne {s : Store α} {r : Ref α} (x : α) (h : r ≠ s.next) :
    (s.push x).get? r = s.get? r := by
  have : r.index ≠ s.cells.size := fun e => h (by cases r; simp_all [next])
  simp [get?, push, Array.getElem?_push, this]

theorem get?_put_self {s : Store α} {r : Ref α} {x y : α} (h : s.get? r = some y) :
    (s.put r x).get? r = some x := by
  obtain ⟨hlt, -⟩ := Array.getElem?_eq_some_iff.1 h
  simp [get?, put, hlt]

theorem get?_put_of_ne {s : Store α} {r r' : Ref α} (x : α) (h : r' ≠ r) :
    (s.put r x).get? r' = s.get? r' := by
  have : r.index ≠ r'.index := fun e => h (by cases r; cases r'; simp_all)
  simp [get?, put, this]

theorem get_of_get? [Inhabited α] {s : Store α} {r : Ref α} {x : α} (h : s.get? r = some x) :
    s.get r = x := by
  simp [get, h]

theorem get_congr [Inhabited α] {s s' : Store α} {r : Ref α} (h : s'.get? r = s.get? r) :
    s'.get r = s.get r := by
  simp [get, h]

/-- A cell that is there is not the next one. -/
theorem ne_next_of_get? {s : Store α} {r : Ref α} (h : (s.get? r).isSome) : r ≠ s.next := by
  rintro rfl
  simp at h

/-- A new cell leaves those that are there alone. -/
theorem get?_push {s : Store α} {r : Ref α} (x : α) (h : (s.get? r).isSome) :
    (s.push x).get? r = s.get? r :=
  get?_push_of_ne x (ne_next_of_get? h)

/-- Overwriting leaves a cell that is not there as it is. -/
theorem get?_put_of_none {s : Store α} {r : Ref α} (x : α) (h : s.get? r = none) :
    (s.put r x).get? r = none := by
  simp only [get?, put] at *
  grind

/-- Overwriting adds no cell and removes none. -/
theorem isSome_get?_put {s : Store α} {r r' : Ref α} (x : α) :
    ((s.put r x).get? r').isSome = (s.get? r').isSome := by
  simp only [get?, put, Array.getElem?_setIfInBounds]
  grind

/-- What holds of all contents and of a new one holds of all contents after overwriting. -/
theorem forall_get_put [Inhabited α] {P : α → Prop} {s : Store α} {r : Ref α} {x : α}
    (h : ∀ r', P (s.get r')) (hx : P x) (r' : Ref α) : P ((s.put r x).get r') := by
  by_cases e : r' = r
  · subst e
    cases hr : s.get? r' with
    | some y => rwa [get_of_get? (get?_put_self hr)]
    | none =>
      rw [get_congr ((get?_put_of_none x hr).trans hr.symm)]
      exact h r'
  · rw [get_congr (get?_put_of_ne x e)]
    exact h r'

/-- What holds of all contents and of a new one holds of all contents after adding. -/
theorem forall_get_push [Inhabited α] {P : α → Prop} {s : Store α} {x : α}
    (h : ∀ r', P (s.get r')) (hx : P x) (r' : Ref α) : P ((s.push x).get r') := by
  by_cases e : r' = s.next
  · subst e
    rwa [get_of_get? (get?_push_next s x)]
  · rw [get_congr (get?_push_of_ne x e)]
    exact h r'

/-- Nothing changes when a cell gets the content it has. -/
theorem put_get [Inhabited α] (s : Store α) (r : Ref α) : s.put r (s.get r) = s := by
  obtain ⟨cells⟩ := s
  simp only [put, get, get?, mk.injEq]
  apply Array.ext_getElem?
  intro i
  rw [Array.getElem?_setIfInBounds]
  grind

/-- The later of two values for one cell counts. -/
theorem put_put (s : Store α) (r : Ref α) (x y : α) : (s.put r x).put r y = s.put r y := by
  simp [put]

/-- Values for different cells can be given in either order. -/
theorem put_comm {s : Store α} {r r' : Ref α} (x y : α) (h : r ≠ r') :
    (s.put r x).put r' y = (s.put r' y).put r x := by
  have : r.index ≠ r'.index := fun e => h (Ref.ext e)
  simp only [put, mk.injEq]
  apply Array.ext_getElem?
  intro i
  simp only [Array.getElem?_setIfInBounds, Array.size_setIfInBounds]
  grind

@[simp] theorem next_put (s : Store α) (r : Ref α) (x : α) : (s.put r x).next = s.next := by
  simp [next, put]

theorem put_push_next (s : Store α) (x y : α) : (s.push x).put s.next y = s.push y := by
  simp only [put, push, next, mk.injEq]
  apply Array.ext_getElem?
  intro i
  simp only [Array.getElem?_setIfInBounds, Array.getElem?_push, Array.size_push]
  grind

end Store

end Optimization
