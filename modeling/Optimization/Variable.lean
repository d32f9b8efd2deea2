import Optimization.Store
import Optimization.Value.Scalar

/-!
# Decision variables

A variable is known by the cell that holds its bounds: two variables with one name are different
variables. Name and domain never change; the bounds may be set to any scalar after the variable
was made, so that they are only read as numbers when the variable is used.
-/

namespace Optimization

/-- The values that a variable may take between its bounds. -/
inductive Domain
  | continuous
  | integer
  deriving DecidableEq, Repr

/-- The text of a domain. -/
def Domain.text : Domain → String
  | .continuous => "continuous"
  | .integer => "integer"

/-- The domain of a text. -/
def Domain.ofText? (s : String) : Option Domain :=
  [Domain.continuous, .integer].find? (·.text == s)

theorem Domain.ofText?_text (d : Domain) : Domain.ofText? d.text = some d := by
  cases d <;> decide +kernel

/-- Lower and upper bound as they were set. -/
structure Interval where
  lower : Scalar := .real 0.0
  upper : Scalar := .real Decimal.infinity

instance : Inhabited Interval := ⟨{}⟩

/-- A decision variable. -/
structure Variable where
  cell : Ref Interval
  name : String
  domain : Domain
  deriving DecidableEq

namespace Variable

/-- What a new variable is made from. -/
structure Request where
  name : String
  lower : Scalar := .real 0.0
  upper : Scalar := .real Decimal.infinity
  domain : Scalar := .text Domain.continuous.text

/-- The domain that a scalar names. -/
def readDomain (x : Scalar) : Except Fault Domain :=
  match x with
  | .text s =>
    match Domain.ofText? s with
    | some d => pure d
    | none => throw (.notAMember x.quoted "VariableType")
  | x => throw (.notAMember x.quoted "VariableType")

/-- Check a request: the name is not empty, the bounds are numbers in order, the domain is one
of the two. -/
def Request.check (r : Request) : Except Fault (Interval × Domain) := do
  if r.name.isEmpty then throw .emptyName
  let lower ← r.lower.toFloat
  let upper ← r.upper.toFloat
  if lower > upper then throw (.invertedBounds lower upper r.name)
  let domain ← readDomain r.domain
  pure (⟨.real lower, .real upper⟩, domain)

/-- Make a variable with a new cell. -/
def Request.make (r : Request) (s : Store Interval) : Except Fault (Variable × Store Interval) := do
  let (interval, domain) ← r.check
  pure (⟨s.next, r.name, domain⟩, s.push interval)

/-- The text of a variable. -/
def toText (v : Variable) : String := s!"Variable({v.name})"

end Variable

end Optimization
