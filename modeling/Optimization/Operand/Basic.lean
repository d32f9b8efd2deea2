import Optimization.Objective
import Optimization.Workspace

/-!
# Operands

An operand is anything that a formula can be about: a scalar, a part of a model, or one of the
objects of a workspace. Objects of a workspace are known by their cells; a constraint that was just
made has none yet.
-/

namespace Optimization

/-- What a formula can be about. -/
inductive Operand
  | scalar (x : Scalar)
  | decision (v : Variable)
  | term (t : Term)
  | expression (e : Expression)
  | made (c : Constraint)
  | constraint (r : Ref Constraint)
  | objective (o : Objective)
  | model (r : Ref Model)
  | problem (r : Ref Lifetime)
  | triplets (r : Ref Triplets)
  | indexMap (r : Ref IndexMap)
  | solver (r : Ref Solver)

instance : Inhabited Operand := ⟨.scalar .nothing⟩

namespace Operand

/-- A number as an operand. -/
@[match_pattern] def number (x : Number) : Operand := scalar (.number x)

/-- A text as an operand. -/
@[match_pattern] def text (s : String) : Operand := scalar (.text s)

/-- A truth value as an operand. -/
def truth (b : Bool) : Operand := scalar (.truth b)

/-- The kind of an operand. -/
def kind : Operand → Kind
  | scalar x => x.kind
  | decision _ => .decision
  | term _ => .term
  | expression _ => .expression
  | made _ | constraint _ => .constraint
  | objective _ => .objective
  | model _ => .model
  | problem _ => .problem
  | triplets _ => .triplets
  | indexMap _ => .indexMap
  | solver _ => .solver

/-- A variable or an expression as an expression. -/
def linear? : Operand → Option Expression
  | decision v => some (.ofVariable v)
  | expression e => some e
  | _ => none

/-- A variable, an expression or a number as an expression. -/
def toExpression : Operand → Except Fault Expression
  | decision v => pure (.ofVariable v)
  | expression e => pure e
  | number x => do pure (.ofFloat (← x.toFloat))
  | _ => throw .notAnExpression

/-- An operand where a float is needed. -/
def toFloat : Operand → Except Fault Float
  | scalar x => x.toFloat
  | x => throw (.notANumber x.kind)

/-- An operand where a scalar is needed. -/
def toScalar : Operand → Except Fault Scalar
  | scalar x => pure x
  | x => throw (.notANumber x.kind)

/-- Whether an operand may be a key: expressions may not, since their equality makes constraints. -/
def checkKey : Operand → Except Fault Unit
  | expression _ => throw (.unhashable .expression)
  | _ => pure ()

end Operand

end Optimization
