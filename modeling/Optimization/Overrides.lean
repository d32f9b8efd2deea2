import Optimization.Workspace

/-!
# Overrides

Variables can be fixed to given values for a while: their bounds are overwritten one after the
other, and on every exit the old bounds are put back in the order in which they were saved.

* A value that is no number ends the overwriting; what was overwritten is put back.
* Names that no variable has are noted in the journal and have no other effect.
-/

namespace Optimization

/-- Values for variables by name. -/
abbrev Overrides := List (String × Scalar)

/-- Bounds that were overwritten, in the order in which that happened. -/
abbrev Saved := List (Ref Interval × Interval)

namespace Overrides

/-- Both bounds at one value. -/
def point (x : Float) : Interval := ⟨.real x, .real x⟩

/-- Overwrite the bounds of the variables that have a value, up to the first value that is no
number. -/
def fix (values : Overrides) :
    List Variable → Store Interval → Saved × Store Interval × Option Fault
  | [], s => ([], s, none)
  | v :: rest, s =>
    match values.lookup v.name with
    | none => fix values rest s
    | some x =>
      match x.toFloat with
      | .error fault => ([], s, some fault)
      | .ok y =>
        let (saved, s', fault) := fix values rest (s.put v.cell (point y))
        ((v.cell, s.get v.cell) :: saved, s', fault)

/-- Put saved bounds back. -/
def restore (saved : Saved) (s : Store Interval) : Store Interval :=
  saved.foldl (fun s (cell, interval) => s.put cell interval) s

/-- The names that no variable has, in order and without repetition. -/
def unknownNames (values : Overrides) (vs : List Variable) : List String :=
  (((values.map Prod.fst).filter fun name => !vs.any (·.name == name)).mergeSort
    fun a b => !decide (b < a)).eraseReps

/-- Note the names that no variable has. -/
def noteUnknown (values : Overrides) (vs : List Variable) : Action Unit := do
  let names := unknownNames values vs
  unless names.isEmpty do
    .note .warning .translator
      ("Ignoring values for unknown variables: " ++ ", ".intercalate names)

/-- Run an action while the variables with a value are fixed. -/
def during {α : Type} (values : Overrides) (vs : List Variable) (body : Action α) :
    Action α := fun w =>
  let (saved, intervals, fault) := fix values vs w.intervals
  let inner : Action α :=
    match fault with
    | some fault => throw fault
    | none => do noteUnknown values vs; body
  (inner.ensuring fun w => { w with intervals := restore saved w.intervals }).run
    { w with intervals }

/-- The bounds of variables as they stand. -/
def bounds (vs : List Variable) : Action (List (Variable × Interval)) := do
  let w ← get
  pure (vs.map fun v => (v, w.intervals.get v.cell))

/-- What can be seen of bounds while variables are fixed and afterwards. -/
structure Observation where
  inside : Option (List (Variable × Interval))
  failure : Option Fault
  after : List (Variable × Interval)

/-- Fix variables, look at all bounds, possibly fail, and look at all bounds afterwards. -/
def observe (values : Overrides) (vs : List Variable) (failing : Option Fault) :
    Action Observation := do
  let outcome ← (during values vs do
    let inside ← bounds vs
    pure (inside, failing)).attempt
  let after ← bounds vs
  match outcome with
  | .ok (inside, failure) => pure ⟨some inside, failure, after⟩
  | .error fault => pure ⟨none, some fault, after⟩

@[simp] theorem restore_nil (s : Store Interval) : restore [] s = s := rfl

end Overrides

end Optimization
