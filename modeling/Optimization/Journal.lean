import Optimization.Fault

/-!
# Journals

What was done is noted line by line, each note with its weight and the part of the library that it
comes from. A transcript records what a listener received during a run, and what it did about it.
-/

namespace Optimization

/-- The weight of a note. -/
inductive Severity
  | info
  | warning
  | error
  deriving DecidableEq, Repr

/-- The word for a weight. -/
def Severity.word : Severity → String
  | info => "INFO"
  | warning => "WARNING"
  | error => "ERROR"

/-- The part of the library that a note comes from. -/
inductive Origin
  | solver
  | translator
  | loader
  deriving DecidableEq, Repr

/-- The name of a part of the library. -/
def Origin.name : Origin → String
  | solver => "optiglpk.solver"
  | translator => "optiglpk.translator"
  | loader => "optiglpk.loader"

/-- A line of the journal. -/
structure Note where
  severity : Severity
  origin : Origin
  text : String
  deriving DecidableEq, Repr

/-- An entry of a transcript. -/
inductive Remark
  /-- A line that was received. -/
  | line (text : String)
  /-- Whether the solver was seen busy. -/
  | busy (seen : Bool)
  /-- A request to the solver, and its refusal if it was refused. -/
  | request (name : String) (refusal : Option Fault)

end Optimization
