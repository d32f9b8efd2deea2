import Optimization.FixedWidth
import Optimization.Operand.Basic

/-!
# Arithmetic of operands

Variables and expressions are added, subtracted, scaled and divided; a variable can be raised to a
power. Where one side is a variable or an expression and the other side does not fit, the refusal
speaks of the expression that the variable stands for. Scalars are combined as numbers and texts.
-/

namespace Optimization.Operand

/-! ### Scalars -/

/-- A text repeated. -/
def repeated (s : String) (n : Int) : String := "".intercalate (List.replicate n.toNat s)

/-- A text times something, which must be an integer. -/
def repetition (s : String) : Operand → Except Fault Operand
  | number x =>
    match x.whole? with
    | some n => if (CellType.signed 64).fits n then pure (text (repeated s n)) else throw .tooLarge
    | none => throw (.repetition x.kind)
  | x => throw (.repetition x.kind)

/-- Combine two numbers. -/
def combineNumbers (op : Operator) (x y : Number) : Except Fault Operand :=
  match op with
  | .add => do pure (number (← x.add y))
  | .sub => do pure (number (← x.sub y))
  | .mul => do pure (number (← x.mul y))
  | .div => do pure (number (← x.div y))
  | .pow => do pure (number (← x.pow y))

/-- Combine two operands neither of which is a variable or an expression. -/
def combineOthers (op : Operator) (a b : Operand) : Except Fault Operand :=
  match op, a, b with
  | op, number x, number y => combineNumbers op x y
  | .add, text s, text t => pure (text (s ++ t))
  | .add, text _, b => throw (.concatenation b.kind)
  | .mul, text s, b => repetition s b
  | .mul, a, text t => repetition t a
  | op, a, b => throw (.undefinedOperator op a.kind b.kind)

/-! ### Variables and expressions -/

/-- Add something to an expression. -/
def addTo (e : Expression) (b : Operand) : Except Fault Operand :=
  match b.linear?, b with
  | some e', _ => do pure (expression (← e.add e'))
  | none, number x => do pure (expression (← e.addNumber x))
  | none, b => throw (.undefinedOperator .add .expression b.kind)

/-- Add an expression, which stands on the right, to something that is none. -/
def addReflected (a : Operand) (b : Operand) (e : Expression) : Except Fault Operand :=
  match a, b with
  | number x, _ => do pure (expression (← e.addNumber x))
  | a, decision _ => throw (.undefinedOperator .add .expression a.kind)
  | text _, _ => throw (.concatenation .expression)
  | a, _ => throw (.undefinedOperator .add a.kind .expression)

/-- Subtract something from an expression. -/
def subFrom (e : Expression) (b : Operand) : Except Fault Operand :=
  match b.linear?, b with
  | some e', _ => do pure (expression (← e.sub e'))
  | none, number x => do pure (expression (← e.subNumber x))
  | none, b => throw (.undefinedOperator .sub .expression b.kind)

/-- Multiply an expression by something. -/
def scaleBy (e : Expression) : Operand → Except Fault Operand
  | number x => do pure (expression (← e.scale x))
  | _ => throw .notAScalarFactor

/-- Divide something by something, where one side is a variable or an expression. -/
def divide (a b : Operand) : Except Fault Operand :=
  match a.linear?, b with
  | some e, number x => do pure (expression (← e.divide x))
  | some _, _ => throw (.notAScalarDivisor (a.kind == .decision))
  | none, b => throw (.undefinedOperator .div a.kind b.kind)

/-- Raise something to a power, where one side is a variable or an expression. -/
def raise (a b : Operand) : Except Fault Operand :=
  match a, b with
  | decision v, scalar x => do pure (expression (← Expression.power v x))
  | decision _, _ => throw .notAPower
  | a, b => throw (.undefinedOperator .pow a.kind b.kind)

/-- Combine two operands. -/
def combine (op : Operator) (a b : Operand) : Except Fault Operand :=
  match a.linear?, b.linear? with
  | none, none => combineOthers op a b
  | some e, _ =>
    match op with
    | .add => addTo e b
    | .sub => subFrom e b
    | .mul => scaleBy e b
    | .div => divide a b
    | .pow => raise a b
  | none, some e =>
    match op with
    | .add => addReflected a b e
    | .sub => do addTo (← e.negate) a
    | .mul => scaleBy e a
    | .div => divide a b
    | .pow => raise a b

/-- The negative of an operand. -/
def negate (a : Operand) : Except Fault Operand :=
  match a.linear?, a with
  | some e, _ => do pure (expression (← e.negate))
  | none, number x => pure (number x.neg)
  | none, a => throw (.undefinedNegation a.kind)

/-- The sum of operands, added from the left to the integer zero. -/
def sum (xs : List Operand) : Except Fault Operand :=
  xs.foldlM (combine .add) (scalar (.integer 0))

end Optimization.Operand
