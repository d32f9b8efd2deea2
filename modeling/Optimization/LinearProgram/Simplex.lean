import Optimization.LinearProgram.Tableau

/-!
# The simplex method

From a tableau, first the basic variables are brought within their limits, then the weighted sum is
made least. Of several possible choices the one with the least variable is taken, so that no
tableau comes back; the number of possible tableaus bounds the number of steps.
-/

namespace Optimization.Tableau

/-- How the method ends. -/
inductive Verdict
  | optimal
  | infeasible
  | unbounded
  /-- The bound on the number of steps was reached. -/
  | unfinished
  deriving DecidableEq, Repr

/-! ### Reaching the limits -/

/-- The limit that the basic variable of a row misses. -/
def missed? (t : Tableau) (i : Nat) : Option Rat :=
  let v := t.basicAt i
  match (t.limit v).below? (t.value v) with
  | some b => some b
  | none => (t.limit v).above? (t.value v)

/-- The row whose basic variable is the least that misses a limit. -/
def violation? (t : Tableau) : Option Nat :=
  leastBy t.rows.size t.basicAt fun i => (t.missed? i).isSome

/-- The variable at a place can change so that the basic variable of a row goes up or down. -/
def canHelp (t : Tableau) (i : Nat) (up : Bool) (k : Nat) : Bool :=
  let a := t.coefficient i k
  let v := t.otherAt k
  if a = 0 then false
  else if decide (0 < a) == up then (t.limit v).canIncrease (t.value v)
  else (t.limit v).canDecrease (t.value v)

/-- Bring all basic variables within their limits; false if that is not possible. -/
def reach (t : Tableau) : Nat → Option Bool × Tableau
  | 0 => (none, t)
  | fuel + 1 =>
    match t.violation? with
    | none => (some true, t)
    | some i =>
      let target := (t.missed? i).getD 0
      let x := t.value (t.basicAt i)
      match leastBy t.others.size t.otherAt (t.canHelp i (decide (x < target))) with
      | none => (some false, t)
      | some k => ((t.move k ((target - x) / t.coefficient i k)).pivot i k).reach fuel

/-! ### Improving the sum -/

/-- Limits that a basic variable misses within the tolerance are widened, so that all values lie
within limits. -/
def settle (t : Tableau) : Tableau :=
  { t with limits := t.limits.mapIdx fun v l => l.widen (t.value v) }

/-- The change of the weighted sum per change of the variable at a place. -/
def rate (t : Tableau) (weight : Nat → Rat) (k : Nat) : Rat :=
  (List.range t.rows.size).foldl
    (fun sum i => sum + weight (t.basicAt i) * t.coefficient i k) (weight (t.otherAt k))

/-- The sum becomes less when the variable at a place changes as far as it can. -/
def improves (t : Tableau) (weight : Nat → Rat) (tolerance : Rat) (k : Nat) : Bool :=
  let d := t.rate weight k
  let v := t.otherAt k
  if d < -tolerance then (t.limit v).canIncrease (t.value v)
  else if tolerance < d then (t.limit v).canDecrease (t.value v)
  else false

/-- The room of a value towards a limit, if there is one. -/
def room? (l : Limits) (x : Rat) (up : Bool) : Option Rat :=
  if up then l.upper.map (· - x) else l.lower.map (x - ·)

/-- What ends a change: the variable itself, or the basic variable of a row, each with the size of
the change at which that happens. -/
structure Stop where
  row : Option Nat
  stopping : Nat
  size : Rat

/-- The first stop of two, the least variable if both come at once. -/
def Stop.first (a : Option Stop) (b : Stop) : Option Stop :=
  match a with
  | none => some b
  | some a =>
    if b.size < a.size then some b
    else if b.size = a.size && decide (b.stopping < a.stopping) then some b
    else some a

/-- The stop that a basic variable sets to a change of the variable at a place. -/
def rowStop? (t : Tableau) (k : Nat) (up : Bool) (i : Nat) : Option Stop :=
  let a := if up then t.coefficient i k else -t.coefficient i k
  let v := t.basicAt i
  if a = 0 then none
  else (room? (t.limit v) (t.value v) (decide (0 < a))).map fun r =>
    ⟨some i, v, r / (if a < 0 then -a else a)⟩

/-- The first stop of a change of the variable at a place. -/
def stop? (t : Tableau) (k : Nat) (up : Bool) : Option Stop :=
  let v := t.otherAt k
  let own := (room? (t.limit v) (t.value v) up).map fun r => Stop.mk none v r
  (List.range t.rows.size).foldl
    (fun best i =>
      match t.rowStop? k up i with
      | some s => Stop.first best s
      | none => best) own

/-- Make the weighted sum least, from values within limits. -/
def improve (t : Tableau) (weight : Nat → Rat) (tolerance : Rat) : Nat → Verdict × Tableau
  | 0 => (.unfinished, t)
  | fuel + 1 =>
    match leastBy t.others.size t.otherAt (t.improves weight tolerance) with
    | none => (.optimal, t)
    | some k =>
      let up := decide (t.rate weight k < 0)
      match t.stop? k up with
      | none => (.unbounded, t)
      | some s =>
        let t := t.move k (if up then s.size else -s.size)
        match s.row with
        | some i => (t.pivot i k).improve weight tolerance fuel
        | none => t.improve weight tolerance fuel

/-! ### The whole method -/

/-- The rate below which a variable is not worth changing. -/
def tolerance (weights : List Rat) : Rat :=
  let greatest := weights.foldl (fun m x => if x < -m then -x else if m < x then x else m) 1000
  greatest / 1000 / 10000000

/-- The weight of a variable; rows have none. -/
def weightOf (weights : List Rat) (v : Nat) : Rat := weights.getD v 0

/-- Solve from a tableau. -/
def solve (t : Tableau) (weights : List Rat) : Verdict × Tableau :=
  match t.reach t.ways with
  | (none, t) => (.unfinished, t)
  | (some false, t) => (.infeasible, t)
  | (some true, t) => t.settle.improve (weightOf weights) (tolerance weights) t.ways

/-- No step is needed from a tableau. -/
def isFinal (t : Tableau) (weights : List Rat) : Bool :=
  t.violation?.isNone &&
    (leastBy t.others.size t.otherAt (t.improves (weightOf weights) (tolerance weights))).isNone

end Optimization.Tableau
