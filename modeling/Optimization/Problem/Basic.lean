import Optimization.Problem.Span
import Optimization.Triplets

/-!
# Problems of an engine

A problem has numbered columns and rows, an objective over the columns, and for each row the list
of its nonzero coefficients. Columns and rows count from one.

* New columns have no name, are fixed at zero, continuous, and without weight in the objective.
  New rows have no name and are free.
* An empty name is no name.
* A row lists its coefficients in the reverse of the order in which they were loaded.
* Position zero of the objective is its constant.
-/

namespace Optimization

/-- The kinds of columns; a binary one is an integer column from zero to one. -/
inductive ColumnKind
  | continuous
  | integer
  | binary
  deriving DecidableEq, Repr

/-- The code of a column kind. -/
def ColumnKind.code : ColumnKind → Int
  | .continuous => 1
  | .integer => 2
  | .binary => 3

/-- A column of a problem. -/
structure Column where
  name : Option String := none
  span : Span := .zero
  integral : Bool := false
  weight : Float := 0.0

/-- A row of a problem, with its nonzero coefficients by column. -/
structure Row where
  name : Option String := none
  span : Span := .unbounded
  entries : List (Nat × Float) := []

/-- What an engine found out about a problem: a raw status, the objective and a value for each
column. -/
structure Outcome where
  status : Int := 1
  objective : Float := 0.0
  values : List Float := []

/-- A problem of an engine. -/
structure Problem where
  name : Option String := none
  objectiveName : Option String := none
  maximize : Bool := false
  constant : Float := 0.0
  columns : List Column := []
  rows : List Row := []
  relaxed : Outcome := {}
  integral : Outcome := {}

instance : Inhabited Column := ⟨{}⟩
instance : Inhabited Row := ⟨{}⟩
instance : Inhabited Problem := ⟨{}⟩

namespace Column

/-- The kind of a column. -/
def kind (c : Column) : ColumnKind :=
  if c.integral then (if c.span.isUnit then .binary else .integer) else .continuous

/-- Give a column a kind; a binary column has its bounds set to zero and one. -/
def ofKind (c : Column) : ColumnKind → Column
  | .continuous => { c with integral := false }
  | .integer => { c with integral := true }
  | .binary => { c with integral := true, span := if c.span.isUnit then c.span else .unit }

end Column

namespace Problem

/-- The greatest length of a name in characters. -/
def nameLimit : Nat := 255

/-- A name must not be too long. -/
def limitName (s : String) : Except Fault String :=
  if s.length ≤ nameLimit then pure s else throw (.nameTooLong s)

/-- The name that is kept: the empty name is none. -/
def keptName (s : String) : Option String := if s.isEmpty then none else some s

/-- A change of the item at a position that counts from one. -/
def changeAt {α : Type} (f : α → α) (xs : List α) (i : Nat) : List α :=
  if i = 0 then xs else xs.modify (i - 1) f

/-- The item at a position that counts from one. -/
def itemAt {α : Type} [Inhabited α] (xs : List α) (i : Nat) : α :=
  if i = 0 then default else xs.getD (i - 1) default

/-- The number of rows. -/
def rowCount (p : Problem) : Nat := p.rows.length

/-- The number of columns. -/
def columnCount (p : Problem) : Nat := p.columns.length

/-- The number of nonzero coefficients. -/
def nonzeroCount (p : Problem) : Nat := (p.rows.flatMap (·.entries)).length

/-- Some column takes integer values only. -/
def isMixedInteger (p : Problem) : Bool := p.columns.any (·.integral)

/-- Column `j`. -/
def column (p : Problem) (j : Nat) : Column := itemAt p.columns j

/-- Row `i`. -/
def row (p : Problem) (i : Nat) : Row := itemAt p.rows i

/-- Add columns at the end. -/
def addColumns (p : Problem) (count : Nat) : Problem :=
  { p with columns := p.columns ++ List.replicate count {} }

/-- Add rows at the end. -/
def addRows (p : Problem) (count : Nat) : Problem :=
  { p with rows := p.rows ++ List.replicate count {} }

/-- Change column `j`. -/
def changeColumn (p : Problem) (j : Nat) (f : Column → Column) : Problem :=
  { p with columns := changeAt f p.columns j }

/-- Change row `i`. -/
def changeRow (p : Problem) (i : Nat) (f : Row → Row) : Problem :=
  { p with rows := changeAt f p.rows i }

/-- Name column `j`. -/
def nameColumn (p : Problem) (j : Nat) (name : String) : Problem :=
  p.changeColumn j fun c => { c with name := keptName name }

/-- Bound column `j`. -/
def boundColumn (p : Problem) (j : Nat) (t : BoundType) (lower upper : Float) : Problem :=
  p.changeColumn j fun c => { c with span := .keep t lower upper }

/-- Give column `j` a kind. -/
def typeColumn (p : Problem) (j : Nat) (kind : ColumnKind) : Problem :=
  p.changeColumn j (·.ofKind kind)

/-- Set name, bounds and kind of column `j`. -/
def setColumn (p : Problem) (j : Nat) (name : String) (t : BoundType) (lower upper : Float)
    (kind : ColumnKind) : Problem :=
  ((p.nameColumn j name).boundColumn j t lower upper).typeColumn j kind

/-- Name row `i`. -/
def nameRow (p : Problem) (i : Nat) (name : String) : Problem :=
  p.changeRow i fun r => { r with name := keptName name }

/-- Bound row `i`. -/
def boundRow (p : Problem) (i : Nat) (t : BoundType) (lower upper : Float) : Problem :=
  p.changeRow i fun r => { r with span := .keep t lower upper }

/-- Set name and bounds of row `i`. -/
def setRow (p : Problem) (i : Nat) (name : String) (t : BoundType) (lower upper : Float) :
    Problem :=
  (p.nameRow i name).boundRow i t lower upper

/-- Name the objective and choose its direction. -/
def setObjective (p : Problem) (name : String) (maximize : Bool) : Problem :=
  { p with objectiveName := keptName name, maximize := maximize }

/-- Set the weight of column `j` in the objective, or its constant at position zero. -/
def setWeight (p : Problem) (j : Nat) (x : Float) : Problem :=
  if j = 0 then { p with constant := x } else p.changeColumn j fun c => { c with weight := x }

/-- The weight of column `j` in the objective, or its constant at position zero. -/
def weight (p : Problem) (j : Nat) : Float :=
  if j = 0 then p.constant else (p.column j).weight

/-- The nonzero coefficients of a row among loaded entries, the last loaded first. -/
def rowEntries (entries : List Entry) (i : Nat) : List (Nat × Float) :=
  ((entries.filter fun e => e.row == i && e.coefficient != 0.0).map
    fun e => (e.column, e.coefficient)).reverse

/-- Replace the coefficients of all rows. -/
def load (p : Problem) (entries : List Entry) : Problem :=
  { p with rows := p.rows.mapIdx fun k r => { r with entries := rowEntries entries (k + 1) } }

/-- The coefficient of a column among those of a row. -/
def coefficientAt (entries : List (Nat × Float)) (j : Nat) : Float := (entries.lookup j).getD 0.0

/-- The full matrix, row by row. -/
def dense (p : Problem) : List (List Float) :=
  p.rows.map fun r => (List.range p.columnCount).map fun j => coefficientAt r.entries (j + 1)

/-- The text of a problem. -/
def toText (p : Problem) : String :=
  s!"<optiglpk.Problem rows={p.rowCount} cols={p.columnCount}>"

@[simp] theorem rowCount_load (p : Problem) (es : List Entry) :
    (p.load es).rowCount = p.rowCount := by
  simp [load, rowCount]

@[simp] theorem columnCount_load (p : Problem) (es : List Entry) :
    (p.load es).columnCount = p.columnCount := rfl

@[simp] theorem columnCount_addColumns (p : Problem) (n : Nat) :
    (p.addColumns n).columnCount = p.columnCount + n := by
  simp [addColumns, columnCount]

@[simp] theorem rowCount_addRows (p : Problem) (n : Nat) :
    (p.addRows n).rowCount = p.rowCount + n := by
  simp [addRows, rowCount]

@[simp] theorem length_changeAt {α : Type} (f : α → α) (xs : List α) (i : Nat) :
    (changeAt f xs i).length = xs.length := by
  unfold changeAt; split <;> simp

@[simp] theorem columnCount_changeColumn (p : Problem) (j : Nat) (f : Column → Column) :
    (p.changeColumn j f).columnCount = p.columnCount := by
  simp [changeColumn, columnCount]

@[simp] theorem rowCount_changeRow (p : Problem) (i : Nat) (f : Row → Row) :
    (p.changeRow i f).rowCount = p.rowCount := by
  simp [changeRow, rowCount]

end Problem

end Optimization
