/-!
# Kinds of values and operators between them

The names of the kinds and the symbols of the operators occur in messages about operations that
are not defined.
-/

namespace Optimization

/-- The kind of a value. -/
inductive Kind
  | nothing
  | truth
  | integer
  | real
  | text
  | decision
  | term
  | expression
  | constraint
  | objective
  | model
  | problem
  | triplets
  | indexMap
  | solver
  deriving DecidableEq, Repr

/-- The name of a kind in messages. -/
def Kind.name : Kind → String
  | .nothing => "NoneType"
  | .truth => "bool"
  | .integer => "int"
  | .real => "float"
  | .text => "str"
  | .decision => "Variable"
  | .term => "Term"
  | .expression => "Expression"
  | .constraint => "Constraint"
  | .objective => "Objective"
  | .model => "Model"
  | .problem => "Problem"
  | .triplets => "SparseMatrixBuilder"
  | .indexMap => "IndexMap"
  | .solver => "GLPKSolver"

/-- Operators between two numbers or expressions. -/
inductive Operator
  | add
  | sub
  | mul
  | div
  | pow
  deriving DecidableEq, Repr

/-- The symbol of an operator in messages. -/
def Operator.symbol : Operator → String
  | .add => "+"
  | .sub => "-"
  | .mul => "*"
  | .div => "/"
  | .pow => "** or pow()"

/-- Comparisons. -/
inductive Relation
  | le
  | ge
  | eq
  | ne
  | lt
  | gt
  deriving DecidableEq, Repr

/-- The symbol of a comparison. -/
def Relation.symbol : Relation → String
  | .le => "<="
  | .ge => ">="
  | .eq => "=="
  | .ne => "!="
  | .lt => "<"
  | .gt => ">"

/-- The comparison with its sides exchanged. -/
def Relation.flip : Relation → Relation
  | .le => .ge
  | .ge => .le
  | .eq => .eq
  | .ne => .ne
  | .lt => .gt
  | .gt => .lt

@[simp] theorem Relation.flip_flip (r : Relation) : r.flip.flip = r := by cases r <;> rfl

end Optimization
