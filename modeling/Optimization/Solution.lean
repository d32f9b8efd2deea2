import Optimization.Keyed
import Optimization.Status

/-!
# Solutions

A solution records what became of a model: statuses, the time, and, if there are any, the values
of variables and objectives by name. Its fields never change.
-/

namespace Optimization

/-- Values by name. -/
abbrev NamedValues := List (String × Scalar)

/-- The result of solving a model. -/
structure Solution where
  modelName : Scalar
  wallTime : Scalar
  modelStatus : ModelStatus
  solutionStatus : SolutionStatus
  variableValues : Option NamedValues := none
  constraintValues : Option NamedValues := none
  objectiveValues : Option NamedValues := none

namespace Solution

/-- Values are available. -/
def isOptimal (s : Solution) : Bool := s.solutionStatus == .optimal

/-- A number written by a float format; other scalars have no such text. -/
def formatted (code letter : String) (write : Float → String) : Scalar → Except Fault String
  | .number x => do pure (write (← x.toFloat))
  | .nothing => throw (.noFormat code .nothing)
  | .text _ => throw (.noTextFormat letter)

/-- A number with three places. -/
def timeText (x : Scalar) : Except Fault String := formatted ".3f" "f" (Decimal.fixed 3) x

/-- A number in scientific notation with six places. -/
def valueText (x : Scalar) : Except Fault String := formatted ".6e" "e" (Decimal.exponential 6) x

/-- The lines about the objectives. -/
def objectiveLines (s : Solution) : Except Fault (List String) :=
  (s.objectiveValues.getD []).mapM fun (name, x) => do pure s!"Objective {name}: {← valueText x}"

/-- The line about the variables. -/
def variableLines (s : Solution) : List String :=
  match s.variableValues with
  | some values => [s!"Variables:       {values.length}"]
  | none => []

/-- The text of a solution. -/
def toText (s : Solution) : Except Fault String := do
  let time ← timeText s.wallTime
  let objectives ← s.objectiveLines
  pure ("\n".intercalate (
    ["GLPK Solution",
      String.ofList (List.replicate 50 '='),
      s!"Model:           {s.modelName.toText}",
      s!"Model status:    {s.modelStatus.word}",
      s!"Solution status: {s.solutionStatus.word}",
      s!"Time:            {time} seconds"] ++ objectives ++ s.variableLines))

/-- Values given one by one, as a solution keeps them. -/
def collect (entries : List (String × Scalar)) : NamedValues := Keyed.ofEntries entries

/-- Every write into the values of a solution is refused. -/
def writeValue : Fault := .readOnlyMapping

/-- Every change of a field is refused. -/
def assignField : Fault := .readOnlyRecord

end Solution

end Optimization
