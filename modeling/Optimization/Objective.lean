import Optimization.Expression.Basic
import Optimization.Text.LowerCase

/-!
# Objectives

An objective asks for the least or the greatest value of an expression. A direction that is no
text is kept as it is given; it is neither of the two, has no text, and is solved as the least
value.
-/

namespace Optimization

/-- The direction of an objective. -/
inductive Direction
  | minimize
  | maximize
  | unknown (x : Scalar)

namespace Direction

/-- The text of a direction. -/
def text? : Direction → Option String
  | minimize => some "minimize"
  | maximize => some "maximize"
  | unknown _ => none

/-- The direction that a scalar asks for; texts are compared in lower case. -/
def ofScalar : Scalar → Except Fault Direction
  | .text s =>
    let s := Text.lower s
    match [minimize, maximize].find? (·.text? == some s) with
    | some d => pure d
    | none => throw (.notAMember (Text.quoted s) "Sense")
  | x => pure (unknown x)

/-- Only the greatest value is asked for explicitly. -/
def isMaximize : Direction → Bool
  | maximize => true
  | _ => false

end Direction

/-- An expression to be made least or greatest. -/
structure Objective where
  expression : Expression
  name : String
  direction : Direction

namespace Objective

/-- The name of an objective that is given none. -/
def defaultName : String := "obj"

/-- The name that an objective gets: an empty one is replaced. -/
def nameOr (name : Option String) : String :=
  match name with
  | some s => if s.isEmpty then defaultName else s
  | none => defaultName

/-- The text of an objective, if its direction has one. -/
def toText (o : Objective) : Except Fault String :=
  match o.direction.text? with
  | some d => pure s!"Objective({d} {o.expression.toText}, name={o.name})"
  | none => throw .noProperty

end Objective

end Optimization
