import Optimization.LinearProgram.Simplex

/-!
# Search for integer values

Some variables of a linear program must take integer values. The program is solved without that
demand; if one of them comes out with a fraction, the program is split into one where the variable
is at most the integer below and one where it is at least the integer above. A part whose sum
cannot be less than that of the best point found so far is left out.
-/

namespace Optimization.LinearProgram

/-- How far an integer may be missed. -/
def integerTolerance : Rat := (1 : Rat) / 100000

/-- The integer nearest to a value. -/
def round (x : Rat) : Int := (x + (1 : Rat) / 2).floor

/-- A value counts as an integer. -/
def isIntegral (x : Rat) : Bool :=
  let d := x - round x
  decide (-integerTolerance ≤ d ∧ d ≤ integerTolerance)

/-- A point with its weighted sum. -/
structure Candidate where
  sum : Rat
  values : Array Rat

/-- The state of a search: the best point so far, and how many parts may still be looked at. -/
structure Progress where
  best : Option Candidate := none
  fuel : Nat

/-- A point with integers in place of the values that must be such. -/
def candidate (integral : Nat → Bool) (weights : List Rat) (t : Tableau) : Candidate :=
  let values := (Array.range weights.length).map fun v =>
    if integral v then (round (t.value v) : Rat) else t.value v
  ⟨Tableau.dot weights.toArray values, values⟩

/-- The first variable that misses its integer. -/
def fractional? (integral : Nat → Bool) (count : Nat) (t : Tableau) : Option Nat :=
  (List.range count).find? fun v => integral v && !isIntegral (t.value v)

/-- A tableau with other limits; variables that are not basic are moved within them. -/
def relimit (t : Tableau) (limits : Array Limits) : Tableau :=
  (List.range t.others.size).foldl
    (fun t k =>
      let v := t.otherAt k
      let amount := (t.limit v).clamp (t.value v) - t.value v
      if amount = 0 then t else t.move k amount)
    { t with limits }

/-- The limits with one variable kept at most an integer, or at least an integer. -/
def split (limits : Array Limits) (v : Nat) (x : Rat) (low : Bool) : Array Limits :=
  limits.modify v fun l =>
    if low then { l with upper := some x.floor } else { l with lower := some (x.floor + 1) }

/-- A sum that is worth looking at: clearly less than that of the best point. -/
def isWorth (best : Option Candidate) (sum : Rat) : Bool :=
  match best with
  | none => true
  | some c => decide (sum < c.sum - (1 : Rat) / 10000000 * (1 + (if c.sum < 0 then -c.sum else c.sum)))

/-- Look at the part of a program that given limits leave, starting from a tableau. -/
def explore (integral : Nat → Bool) (weights : List Rat) :
    Nat → Tableau → Array Limits → Progress → Progress
  | 0, _, _, st => st
  | depth + 1, t, limits, st =>
    if st.fuel = 0 then st
    else
      let st := { st with fuel := st.fuel - 1 }
      match (relimit t limits).solve weights with
      | (.optimal, t) =>
        let sum := Tableau.dot weights.toArray t.values
        if isWorth st.best sum then
          match fractional? integral weights.length t with
          | none => { st with best := some (candidate integral weights t) }
          | some v =>
            let x := t.value v
            let low := decide (x - x.floor < (1 : Rat) / 2)
            let st := explore integral weights depth t (split limits v x low) st
            explore integral weights depth t (split limits v x !low) st
        else st
      | _ => st

/-- The greatest number of parts that are looked at. -/
def partLimit : Nat := 1000000

/-- The best point of a program where some variables must be integers. -/
def search (lp : LinearProgram) (integral : Nat → Bool) : Option Candidate :=
  let t := Tableau.ofProgram lp
  (explore integral lp.weights partLimit t t.limits ⟨none, partLimit⟩).best

end Optimization.LinearProgram
