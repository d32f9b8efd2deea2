import Optimization.LinearProgram.Basic

/-!
# Tableaus

A tableau expresses some variables, the basic ones, as sums of multiples of the other ones. The
rows of a linear program count as variables, behind the program's own, and are basic at the start.

* `move` : change the value of a variable that is not basic, and of the basic ones with it;
* `pivot` : exchange a basic variable and one that is not.
-/

namespace Optimization

/-- Basic variables in terms of the others, with limits and values of all. -/
structure Tableau where
  limits : Array Limits
  values : Array Rat
  basic : Array Nat
  others : Array Nat
  rows : Array (Array Rat)

namespace Tableau

/-- The coefficients of a row over all variables. -/
def spread (count : Nat) (entries : List (Nat × Rat)) : Array Rat :=
  entries.foldl (fun xs (j, x) => xs.modify j (· + x)) (Array.replicate count 0)

/-- The value of a row. -/
def dot (xs ys : Array Rat) : Rat := (xs.zip ys).foldl (fun sum (x, y) => sum + x * y) 0

/-- The tableau in which the rows are basic and the variables stand at their starting values. -/
def ofProgram (lp : LinearProgram) : Tableau :=
  let n := lp.columns.length
  let rows := (lp.rows.map fun (_, entries) => spread n entries).toArray
  let start := (lp.columns.map Limits.start).toArray
  { limits := (lp.columns ++ lp.rows.map Prod.fst).toArray
    values := start ++ rows.map fun row => dot row start
    basic := (Array.range rows.size).map (· + n)
    others := Array.range n
    rows }

/-- The limits of a variable. -/
def limit (t : Tableau) (v : Nat) : Limits := t.limits.getD v default

/-- The value of a variable. -/
def value (t : Tableau) (v : Nat) : Rat := t.values.getD v 0

/-- The basic variable of a row. -/
def basicAt (t : Tableau) (i : Nat) : Nat := t.basic.getD i 0

/-- The other variable of a place. -/
def otherAt (t : Tableau) (k : Nat) : Nat := t.others.getD k 0

/-- The coefficient of a row at a place. -/
def coefficient (t : Tableau) (i k : Nat) : Rat := (t.rows.getD i #[]).getD k 0

/-- Change the value of the variable at a place by an amount, and those of the basic variables
accordingly. -/
def move (t : Tableau) (k : Nat) (amount : Rat) : Tableau :=
  let values := t.values.modify (t.otherAt k) (· + amount)
  let values := (Array.range t.rows.size).foldl
    (fun values i => values.modify (t.basicAt i) (· + t.coefficient i k * amount)) values
  { t with values }

/-- A row solved for the variable at a place. -/
def solved (row : Array Rat) (k : Nat) : Array Rat :=
  let a := row.getD k 1
  row.mapIdx fun l x => if l = k then 1 / a else -x / a

/-- Put a solved row in place of the variable at a place. -/
def substituted (row pivotRow : Array Rat) (k : Nat) : Array Rat :=
  let a := row.getD k 0
  if a = 0 then row
  else row.mapIdx fun l x =>
    if l = k then a * pivotRow.getD k 0 else x + a * pivotRow.getD l 0

/-- Exchange the basic variable of a row and the variable at a place. -/
def pivot (t : Tableau) (i k : Nat) : Tableau :=
  let pivotRow := solved (t.rows.getD i #[]) k
  { t with
    basic := t.basic.setIfInBounds i (t.otherAt k)
    others := t.others.setIfInBounds k (t.basicAt i)
    rows := t.rows.mapIdx fun r row => if r = i then pivotRow else substituted row pivotRow k }

/-- The number of ways in which each variable can be basic, at its lower or at its upper limit. A
method that never comes back to the same way takes fewer steps. -/
def ways (t : Tableau) : Nat := Nat.pow 3 t.limits.size

/-- Of the indices below a number that pass a test, the one with the least variable. -/
def leastBy (count : Nat) (variableAt : Nat → Nat) (test : Nat → Bool) : Option Nat :=
  (List.range count).foldl
    (fun best i =>
      if test i then
        match best with
        | some b => if variableAt i < variableAt b then some i else best
        | none => some i
      else best) none

end Tableau

end Optimization
