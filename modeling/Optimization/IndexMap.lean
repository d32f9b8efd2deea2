import Optimization.Constraint
import Optimization.Store

/-!
# Numbering of variables and constraints

Variables get columns and constraints get rows, both numbered from one in the order in which they
are added. An object is found by its identity: its cell, not its name.
-/

namespace Optimization

/-- The variables of the columns and the constraints of the rows. -/
structure IndexMap where
  decisions : List Variable := []
  constraints : List (Ref Constraint) := []

instance : Inhabited IndexMap := ⟨{}⟩

namespace IndexMap

/-- The place of an item in a list, counted from one. -/
def place? {α : Type} [DecidableEq α] (x : α) (xs : List α) : Option Nat :=
  if x ∈ xs then some (xs.idxOf x + 1) else none

/-- The item at a place counted from one. -/
def itemAt {α : Type} (xs : List α) (i : Int) : Except Fault α :=
  match xs[(i - 1).toNat]? with
  | some x => pure x
  | none => throw .outsideList

/-- The number of columns. -/
def columnCount (m : IndexMap) : Nat := m.decisions.length

/-- The number of rows. -/
def rowCount (m : IndexMap) : Nat := m.constraints.length

/-- Give a variable the next column. -/
def addVariable (m : IndexMap) (v : Variable) : Except Fault IndexMap :=
  if v ∈ m.decisions then throw (.variableMapped v.name)
  else pure { m with decisions := m.decisions ++ [v] }

/-- Give a constraint, whose name is only needed to refuse it, the next row. -/
def addConstraint (m : IndexMap) (c : Ref Constraint) (name : Option String) :
    Except Fault IndexMap :=
  if c ∈ m.constraints then throw (.constraintMapped (quotedName name))
  else pure { m with constraints := m.constraints ++ [c] }

/-- The column of a variable. -/
def columnOf (m : IndexMap) (v : Variable) : Except Fault Nat :=
  match place? v m.decisions with
  | some j => pure j
  | none => throw (.unmapped v.name)

/-- The row of a constraint, whose text is only needed to say that it has none. -/
def rowOf (m : IndexMap) (c : Ref Constraint) (text : String) : Except Fault Nat :=
  match place? c m.constraints with
  | some i => pure i
  | none => throw (.missingKey text)

/-- The variable of a column. -/
def variableAt (m : IndexMap) (j : Int) : Except Fault Variable :=
  if j < 1 then throw (.columnBelowOne j) else itemAt m.decisions j

/-- The constraint of a row. -/
def constraintAt (m : IndexMap) (i : Int) : Except Fault (Ref Constraint) :=
  if i < 1 then throw (.rowBelowOne i) else itemAt m.constraints i

/-- Only the items of a list have a place in it. -/
theorem place?_eq_none_iff {α : Type} [DecidableEq α] (x : α) (xs : List α) :
    place? x xs = none ↔ x ∉ xs := by
  simp [place?]

/-- At the place of an item stands that item. -/
theorem getElem?_of_place? {α : Type} [DecidableEq α] {x : α} {xs : List α} {i : Nat}
    (h : place? x xs = some i) : 1 ≤ i ∧ xs[i - 1]? = some x := by
  unfold place? at h
  split at h
  · next hx =>
    obtain rfl : xs.idxOf x + 1 = i := by simpa using h
    refine ⟨by omega, ?_⟩
    have := List.idxOf_lt_length_of_mem hx
    simp [List.getElem?_eq_getElem this]
  · simp at h

end IndexMap

end Optimization
