import Optimization.MathProg.Arithmetic

/-!
# Expressions of MathProg

An expression denotes a symbol, a truth value, a tuple, a set of tuples or a linear form. Its shape
says which, and is known before it is evaluated.

* A domain is a list of blocks, each with a set and a slot for every component of its members, and
  possibly a condition.
* A slot takes any component, takes it and gives it a name, or asks for a given symbol.
-/

namespace Optimization.MathProg

/-- What an expression denotes; tuples and sets have a dimension. -/
inductive Shape
  | number
  | symbol
  | truth
  | tuple (dimension : Nat)
  | set (dimension : Nat)
  | linear
  deriving DecidableEq, Repr

/-- Operations on two numbers. -/
inductive NumberOperation
  | add
  | sub
  | less
  | mul
  | div
  | idiv
  | mod
  | power
  deriving DecidableEq

/-- Operations on two sets. -/
inductive SetOperation
  | union
  | diff
  | symdiff
  | inter
  | cross
  deriving DecidableEq

/-- Relations between two symbols. -/
inductive Relation
  | lt
  | le
  | eq
  | ge
  | gt
  | ne
  deriving DecidableEq

/-- Functions of numbers. -/
inductive NumberFunction
  | abs
  | ceil
  | floor
  | exp
  | log
  | log10
  | sqrt
  | sin
  | cos
  | tan
  | atan
  | round
  | trunc
  | least
  | greatest
  deriving DecidableEq

/-- Ways to join the values of an expression over a domain. -/
inductive Fold
  | sum
  | product
  | least
  | greatest
  deriving DecidableEq

mutual

/-- An expression. -/
inductive Expr
  | symbol (s : Symbol)
  /-- The component that a slot has named. -/
  | component (name : String)
  | parameter (name : String) (subscripts : List Expr)
  /-- An element of an unknown, as a linear form. -/
  | unknown (name : String) (subscripts : List Expr)
  /-- A declared set. -/
  | declared (name : String) (subscripts : List Expr)
  | tuple (components : List Expr)
  | negate (x : Expr)
  | combine (operation : NumberOperation) (x y : Expr)
  | join (x y : Expr)
  | apply (function : NumberFunction) (arguments : List Expr)
  | size (s : Expr)
  | fold (fold : Fold) (domain : Domain) (x : Expr)
  | choose (condition x : Expr) (otherwise : Option Expr)
  | relate (relation : Relation) (x y : Expr)
  | isIn (x s : Expr)
  | isWithin (s t : Expr)
  | not (x : Expr)
  | and (x y : Expr)
  | or (x y : Expr)
  | all (domain : Domain) (x : Expr)
  | any (domain : Domain) (x : Expr)
  /-- The set of the listed members. -/
  | members (xs : List Expr)
  | range (first last : Expr) (step : Option Expr)
  /-- The tuples of a domain. -/
  | build (domain : Domain)
  /-- The values of an expression over a domain. -/
  | image (domain : Domain) (x : Expr)
  | merge (operation : SetOperation) (s t : Expr)

/-- What a block does with a component. -/
inductive Slot
  | free
  | named (name : String)
  | bound (x : Expr)

/-- A set whose members a domain runs through. -/
inductive Block
  | mk (slots : List Slot) (set : Expr)

/-- Tuples to run through. -/
inductive Domain
  | mk (blocks : List Block) (condition : Option Expr)

end

instance : Inhabited Expr := ⟨.symbol default⟩

/-- An expression and its shape. -/
structure Typed where
  expr : Expr
  shape : Shape

namespace Slot

/-- The slot takes a component of its own. -/
def isTaken : Slot → Bool
  | bound _ => false
  | _ => true

/-- The name that the slot gives. -/
def name? : Slot → Option String
  | named s => some s
  | _ => none

end Slot

namespace Block

/-- The slots of a block. -/
def slots : Block → List Slot
  | mk s _ => s

/-- The set of a block. -/
def set : Block → Expr
  | mk _ e => e

end Block

namespace Domain

/-- The blocks of a domain. -/
def blocks : Domain → List Block
  | mk bs _ => bs

/-- The condition of a domain. -/
def condition : Domain → Option Expr
  | mk _ c => c

/-- The number of components of the tuples of a domain. -/
def arity (d : Domain) : Nat := (d.blocks.flatMap fun b => b.slots.filter Slot.isTaken).length

/-- The names that a domain gives. -/
def names (d : Domain) : List String := d.blocks.flatMap fun b => b.slots.filterMap Slot.name?

end Domain

/-- The number of components of the tuples of a domain; without a domain there are none. -/
def arityOf (d : Option Domain) : Nat := (d.map Domain.arity).getD 0

end Optimization.MathProg
