import Optimization.Value.Scalar

/-!
# Statuses and return codes

An engine reports a raw status number, which says what became of a model and whether there are
values, and each of its runs returns a code, zero for success.
-/

namespace Optimization

/-- What an engine knows about a solution. -/
inductive EngineStatus
  | undefined
  | feasible
  | infeasible
  | noFeasible
  | optimal
  | unbounded
  deriving DecidableEq, Repr

namespace EngineStatus

/-- All statuses in the order of their codes. -/
def all : List EngineStatus := [undefined, feasible, infeasible, noFeasible, optimal, unbounded]

/-- The code of a status. -/
def code : EngineStatus → Int
  | undefined => 1
  | feasible => 2
  | infeasible => 3
  | noFeasible => 4
  | optimal => 5
  | unbounded => 6

/-- The word for a status. -/
def word : EngineStatus → String
  | undefined => "UNDEFINED"
  | feasible => "FEASIBLE"
  | infeasible => "INFEASIBLE"
  | noFeasible => "NO_FEASIBLE"
  | optimal => "OPTIMAL"
  | unbounded => "UNBOUNDED"

/-- The status whose code a scalar is. -/
def ofScalar? (raw : Scalar) : Option EngineStatus := all.find? fun s => raw.same (.integer s.code)

/-- The status whose code a scalar must be. -/
def ofScalar (raw : Scalar) : Except Fault EngineStatus :=
  match ofScalar? raw with
  | some s => pure s
  | none => throw (.notAMember raw.quoted "EngineStatus")

end EngineStatus

/-- What is known about a model after it was solved. -/
inductive ModelStatus
  | feasible
  | infeasible
  | unbounded
  | unknown
  deriving DecidableEq, Repr

namespace ModelStatus

/-- The word for a status. -/
def word : ModelStatus → String
  | feasible => "FEASIBLE"
  | infeasible => "INFEASIBLE"
  | unbounded => "UNBOUNDED"
  | unknown => "UNKNOWN"

/-- The status of a word. -/
def ofScalar (x : Scalar) : Except Fault ModelStatus :=
  match [feasible, infeasible, unbounded, unknown].find? fun s => x.same (.text s.word) with
  | some s => pure s
  | none => throw (.notAMember x.quoted "ModelStatus")

end ModelStatus

/-- Whether solving produced values. -/
inductive SolutionStatus
  | optimal
  | noValues
  deriving DecidableEq, Repr

namespace SolutionStatus

/-- The word for a status. -/
def word : SolutionStatus → String
  | optimal => "OPTIMAL"
  | noValues => "NO_SOLUTION_VALUES"

/-- The status of a word. -/
def ofScalar (x : Scalar) : Except Fault SolutionStatus :=
  match [optimal, noValues].find? fun s => x.same (.text s.word) with
  | some s => pure s
  | none => throw (.notAMember x.quoted "SolutionStatus")

end SolutionStatus

/-- What a status of an engine says about the model and its values. -/
def EngineStatus.meaning : EngineStatus → ModelStatus × SolutionStatus
  | noFeasible => (.infeasible, .noValues)
  | infeasible => (.infeasible, .noValues)
  | unbounded => (.unbounded, .noValues)
  | feasible => (.feasible, .optimal)
  | optimal => (.feasible, .optimal)
  | undefined => (.unknown, .noValues)

/-- What a raw status says; a number that is no status says nothing. -/
def mapStatus (raw : Scalar) : ModelStatus × SolutionStatus :=
  ((EngineStatus.ofScalar? raw).map (·.meaning)).getD (.unknown, .noValues)

/-- Reasons by return code. -/
def returnReasons : List (Int × String) :=
  [(1, "invalid initial basis"),
    (2, "singular initial basis matrix"),
    (3, "ill-conditioned initial basis matrix"),
    (4, "incorrect bounds on a double-bounded variable or row"),
    (5, "solver failure"),
    (6, "objective lower limit reached"),
    (7, "objective upper limit reached"),
    (8, "iteration limit exceeded"),
    (9, "time limit exceeded"),
    (10, "no primal feasible solution"),
    (11, "no dual feasible solution"),
    (12, "optimal basis for the LP relaxation not provided"),
    (13, "search terminated by application"),
    (14, "relative MIP gap tolerance reached")]

/-- The meaning of a return code. -/
def describeReturnCode (code : Scalar) : String :=
  if code.same (.integer 0) then "success"
  else
    match returnReasons.find? fun r => code.same (.integer r.1) with
    | some (_, reason) => reason
    | none => s!"unknown return code {code.toText}"

/-- Values are there exactly when the model is known to be feasible. -/
theorem EngineStatus.meaning_optimal_iff (s : EngineStatus) :
    s.meaning.2 = .optimal ↔ s.meaning.1 = .feasible := by
  cases s <;> simp [meaning]

end Optimization
