import Optimization.MathProg.Expr.Basic
import Optimization.Problem.Basic

/-!
# Statements of MathProg

A model is a list of statements: declarations of sets, parameters and unknowns, rows, checks,
displays, prints and the statement that asks for a solution.
-/

namespace Optimization.MathProg

/-- The declaration of a set. -/
structure SetDeclaration where
  name : String
  domain : Option Domain := none
  dimension : Nat
  /-- Sets that contain it. -/
  within : List Expr := []
  assigned : Option Expr := none
  default : Option Expr := none

/-- What the values of a parameter are. -/
inductive ParameterKind
  | number
  | integer
  | binary
  | symbol
  deriving DecidableEq

/-- The declaration of a parameter. -/
structure ParameterDeclaration where
  name : String
  domain : Option Domain := none
  kind : ParameterKind := .number
  /-- Relations that its values satisfy. -/
  relations : List (Relation × Expr) := []
  /-- Sets that its values belong to. -/
  sets : List Expr := []
  assigned : Option Expr := none
  default : Option Expr := none

/-- The limits of an unknown. -/
inductive Limits
  | between (lower upper : Option Expr)
  | exactly (x : Expr)

/-- The declaration of an unknown. -/
structure UnknownDeclaration where
  name : String
  domain : Option Domain := none
  kind : ColumnKind := .continuous
  limits : Limits := .between none none

/-- What a row demands. -/
inductive Demand
  | objective (maximize : Bool) (x : Expr)
  | atMost (x y : Expr)
  | atLeast (x y : Expr)
  | equal (x y : Expr)
  | between (lower x upper : Expr)

/-- The declaration of rows. -/
structure RowDeclaration where
  name : String
  domain : Option Domain := none
  demand : Demand

/-- Where printed text goes, other than to the output: a file that is replaced, or one that the
text is added to. -/
structure Redirection where
  atEnd : Bool
  file : Expr

/-- Text to print by a format. -/
structure Print where
  domain : Option Domain := none
  format : Expr
  arguments : List Expr := []
  redirection : Option Redirection := none

/-- A statement. -/
inductive Statement
  | set (d : SetDeclaration)
  | parameter (d : ParameterDeclaration)
  | unknown (d : UnknownDeclaration)
  | rows (d : RowDeclaration)
  | check (domain : Option Domain) (condition : Expr)
  /-- Expressions to show, and names of sets and parameters to show as a whole. -/
  | display (domain : Option Domain) (xs : List (String ⊕ Expr))
  | print (p : Print)
  | solve

end Optimization.MathProg
