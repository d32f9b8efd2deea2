import Optimization.Constraint
import Optimization.Objective

/-!
# Models

A model holds variables, constraints and objectives in the order in which they were added, and an
index of its variables by name. Adding a variable keeps index and list in step; a list may also be
extended directly, past all checks.
-/

namespace Optimization

/-- A container of variables, constraints and objectives. -/
structure Model where
  name : Scalar
  decisions : List Variable := []
  constraints : List (Ref Constraint) := []
  objectives : List Objective := []
  index : List (String × Variable) := []

instance : Inhabited Model := ⟨{ name := .text "" }⟩

namespace Model

/-- The name of a model that is given none. -/
def defaultName : Scalar := .text "Model"

/-- A model without content. -/
def empty (name : Scalar) : Model := { name := if name.isTrue then name else defaultName }

/-- Some variable takes integer values only. -/
def isMixedInteger (m : Model) : Bool := m.decisions.any (·.domain != .continuous)

/-- Add a variable whose name is new. -/
def addVariable (m : Model) (v : Variable) : Except Fault Model :=
  if (m.index.lookup v.name).isSome then throw (.duplicateName v.name)
  else pure { m with decisions := m.decisions ++ [v], index := m.index ++ [(v.name, v)] }

/-- The variable of a name. -/
def getVariable (m : Model) (name : String) : Except Fault Variable :=
  match m.index.lookup name with
  | some v => pure v
  | none => throw (.missingKey (Text.quoted name))

/-- The name that a constraint has after it is added at a position: the given one unless it is
empty, else its own, else an automatic one. -/
def constraintName (given own : Option String) (position : Nat) : Option String :=
  match given.filter (!·.isEmpty), own with
  | some name, _ => some name
  | none, some name => some name
  | none, none => some s!"c{position}"

/-- Add a constraint, which may get a name by that. -/
def addConstraint (m : Model) (cs : Store Constraint) (r : Ref Constraint)
    (name : Option String) : Model × Store Constraint :=
  let c := cs.get r
  let c := { c with name := constraintName name c.name m.constraints.length }
  ({ m with constraints := m.constraints ++ [r] }, cs.put r c)

/-- Add an objective. -/
def addObjective (m : Model) (o : Objective) : Model :=
  { m with objectives := m.objectives ++ [o] }

/-- The text of a model. -/
def toText (m : Model) : String :=
  s!"Model(name='{m.name.toText}', variables={m.decisions.length}, "
    ++ s!"constraints={m.constraints.length}, objectives={m.objectives.length})"

end Model

end Optimization
