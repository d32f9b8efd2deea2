import Optimization.FixedWidth

/-!
# Matrices as triplets

A sparse matrix is a list of entries `(row, column, coefficient)` in the order in which they were
added; rows and columns count from one. Engines take three parallel sequences whose first slot is
never read; it holds zeros.
-/

namespace Optimization

/-- An entry of a matrix. -/
structure Entry where
  row : Nat
  column : Nat
  coefficient : Float

/-- Entries in the order in which they were added. -/
structure Triplets where
  entries : List Entry := []

instance : Inhabited Triplets := ⟨{}⟩

/-- Three parallel sequences, the first slot of which is unused. -/
structure ParallelArrays where
  rows : List Int
  columns : List Int
  coefficients : List Float

namespace Triplets

/-- The number of entries. -/
def length (m : Triplets) : Nat := m.entries.length

/-- Whether an index lies below one; only numbers can be compared. -/
def belowOne : Scalar → Except Fault Bool
  | .number x => pure (x.less .one)
  | x => throw (.undefinedOrder .lt x.kind .integer)

/-- Some of two indices lies below one; the second is only looked at if the first does not. -/
def someBelowOne (row column : Scalar) : Except Fault Bool := do
  if ← belowOne row then pure true else belowOne column

/-- Read an entry: both indices are at least one, and their integer parts count. -/
def readEntry (row column coefficient : Scalar) : Except Fault Entry := do
  if ← someBelowOne row column then throw (.notOneBased row.toText column.toText)
  pure ⟨(← row.toInteger).toNat, (← column.toInteger).toNat, ← coefficient.toFloat⟩

/-- Add an entry at the end. -/
def push (m : Triplets) (e : Entry) : Triplets := ⟨m.entries ++ [e]⟩

/-- Read an entry and add it at the end. -/
def add (m : Triplets) (row column coefficient : Scalar) : Except Fault Triplets := do
  pure (m.push (← readEntry row column coefficient))

/-- Indices as 32-bit integers behind the unused slot. -/
def indexSlots (xs : List Nat) : Except Fault (List Int) :=
  if xs.all fun n => CellType.int32.fits n then pure (0 :: xs.map Int.ofNat) else throw .tooLarge

/-- Lay the entries out as parallel sequences. -/
def build (m : Triplets) : Except Fault ParallelArrays := do
  let rows ← indexSlots (m.entries.map Entry.row)
  let columns ← indexSlots (m.entries.map Entry.column)
  pure ⟨rows, columns, 0.0 :: m.entries.map Entry.coefficient⟩

/-- The entries of a matrix of the given shape, which must hold them all. -/
def within (m : Triplets) (rows columns : Int) : Except Fault (List Entry) := do
  let _ ← m.build
  if rows < 0 ∨ columns < 0 then throw .outsideShape
  else if m.entries.all fun e => decide ((e.row : Int) ≤ rows ∧ (e.column : Int) ≤ columns) then
    pure m.entries
  else throw .outsideShape

/-- The full matrix, where entries at one place are added up. -/
def dense (entries : List Entry) (rows columns : Nat) : List (List Float) :=
  (List.range rows).map fun i => (List.range columns).map fun j =>
    (entries.filter fun e => e.row == i + 1 && e.column == j + 1).foldl
      (fun sum e => sum + e.coefficient) 0.0

/-- The text of a matrix. -/
def toText (m : Triplets) : String := s!"<SparseMatrixBuilder nnz={m.length}>"

@[simp] theorem length_push (m : Triplets) (e : Entry) : (m.push e).length = m.length + 1 := by
  simp [push, length]

@[simp] theorem entries_push (m : Triplets) (e : Entry) : (m.push e).entries = m.entries ++ [e] :=
  rfl

end Triplets

end Optimization
