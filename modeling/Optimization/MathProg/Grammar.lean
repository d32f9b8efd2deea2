import Optimization.MathProg.Expr.Basic
import Optimization.MathProg.Source

/-!
# Reading expressions

Expressions are read by levels: an expression of one level consists of expressions of the next
level joined by the operators of the level. The shapes of the operands are checked on the way.

* A power binds its right side first, and its exponent may have a sign.
* An iterated sum takes a product, an iterated condition takes a conjunction.
* Names that a domain gives are known until the end of what the domain belongs to.
* Reading is described by one step over a reader for the levels below; `Grammar.parse` ties the knot
  with a bound on the depth that the number of lexemes gives.
-/

namespace Optimization.MathProg

/-- The levels of expressions, the loosest first. -/
inductive Level
  | disjunction
  | conjunction
  | negation
  | relation
  | union
  | intersection
  | crossing
  | range
  | text
  | sum
  | product
  | sign
  | power
  | primary

namespace Shape

/-- A number, or a symbol that may be one. -/
def isNumber : Shape → Bool
  | number | symbol => true
  | _ => false

/-- A number, a symbol, or a linear form. -/
def isLinear : Shape → Bool
  | number | symbol | linear => true
  | _ => false

/-- A truth value, or a number that tells whether it is zero. -/
def isTruth : Shape → Bool
  | number | symbol | truth => true
  | _ => false

/-- A shape of a branch. -/
def isBranch : Shape → Bool
  | number | symbol | linear | set _ => true
  | _ => false

/-- The dimension of a set. -/
def setDimension? : Shape → Option Nat
  | set n => some n
  | _ => none

/-- The dimension of a tuple; a symbol counts as one. -/
def tupleDimension? : Shape → Option Nat
  | number | symbol => some 1
  | tuple n => some n
  | _ => none

/-- The shape of a value that is computed from two. -/
def ofNumbers (s t : Shape) : Shape := if s = linear ∨ t = linear then linear else number

/-- The common shape of two branches. -/
def common? : Shape → Shape → Option Shape
  | linear, t => if t.isLinear then some linear else none
  | s, linear => if s.isLinear then some linear else none
  | symbol, t => if t.isNumber then some symbol else none
  | s, symbol => if s.isNumber then some symbol else none
  | s, t => if s = t then some s else none

end Shape

namespace Typed
open Optimization.MathProg.Parser

/-- The dimension of an expression that must be a set. -/
def dimension (x : Typed) : Parser Nat :=
  match x.shape.setDimension? with
  | some n => pure n
  | none => fail "set expression expected"

/-- The dimension of an expression that must be a tuple or a symbol. -/
def components (x : Typed) : Parser Nat :=
  match x.shape.tupleDimension? with
  | some n => pure n
  | none => fail "tuple expected"

/-- An expression that must be a number or a symbol. -/
def simple (x : Typed) : Parser Expr := do
  require x.shape.isNumber "operand has invalid type"
  pure x.expr

/-- An expression that must be a number, a symbol or a linear form. -/
def linear (x : Typed) : Parser Expr := do
  require x.shape.isLinear "operand has invalid type"
  pure x.expr

/-- An expression that must tell true from false. -/
def condition (x : Typed) : Parser Expr := do
  require x.shape.isTruth "logical expression expected"
  pure x.expr

/-! ### Operators -/

/-- Two numbers or linear forms joined by an operator. -/
def arithmetic (m : String) (x y : Typed) : Parser Typed := do
  let a ← x.linear
  let b ← y.linear
  let shape := x.shape.ofNumbers y.shape
  let numbers : Parser Unit := require (shape = .number) "operand has invalid type"
  let operation ← match m with
    | "+" => pure NumberOperation.add
    | "-" => pure .sub
    | "*" => do
      require (x.shape ≠ .linear || y.shape ≠ .linear) "multiplication of linear forms not allowed"
      pure .mul
    | "/" => do
      require (y.shape ≠ .linear) "operand has invalid type"
      pure .div
    | "less" => do
      numbers
      pure .less
    | "div" => do
      numbers
      pure .idiv
    | _ => do
      numbers
      pure .mod
  pure ⟨.combine operation a b, shape⟩

/-- Two texts put behind each other. -/
def concatenation (_ : String) (x y : Typed) : Parser Typed :=
  return ⟨.join (← x.simple) (← y.simple), .symbol⟩

/-- Two sets joined by an operator. -/
def merging (m : String) (x y : Typed) : Parser Typed := do
  let n ← x.dimension
  let k ← y.dimension
  if m = "cross" then pure ⟨.merge .cross x.expr y.expr, .set (n + k)⟩
  else
    require (n == k) "sets have different dimensions"
    let operation := match m with
      | "union" => SetOperation.union
      | "diff" => .diff
      | "symdiff" => .symdiff
      | _ => .inter
    pure ⟨.merge operation x.expr y.expr, .set n⟩

/-- Two conditions joined by an operator. -/
def junction (m : String) (x y : Typed) : Parser Typed := do
  let a ← x.condition
  let b ← y.condition
  pure ⟨if m = "and" then .and a b else .or a b, .truth⟩

/-- A tuple in a set. -/
def membership (x y : Typed) : Parser Typed := do
  let n ← x.components
  require (n == (← y.dimension)) "tuple and set have different dimensions"
  pure ⟨.isIn x.expr y.expr, .truth⟩

/-- A set within a set. -/
def inclusion (x y : Typed) : Parser Typed := do
  let n ← x.dimension
  require (n == (← y.dimension)) "sets have different dimensions"
  pure ⟨.isWithin x.expr y.expr, .truth⟩

end Typed

/-- The marks of relations. -/
def Relation.marks : List (String × Relation) :=
  [("<", .lt), ("<=", .le), ("=", .eq), (">=", .ge), (">", .gt), ("<>", .ne)]

/-- Functions of numbers by name, with the least and greatest number of arguments. -/
def NumberFunction.table : List (String × NumberFunction × Nat × Nat) :=
  [("abs", .abs, 1, 1), ("ceil", .ceil, 1, 1), ("floor", .floor, 1, 1), ("exp", .exp, 1, 1),
    ("log", .log, 1, 1), ("log10", .log10, 1, 1), ("sqrt", .sqrt, 1, 1), ("sin", .sin, 1, 1),
    ("cos", .cos, 1, 1), ("tan", .tan, 1, 1), ("atan", .atan, 1, 2), ("round", .round, 1, 2),
    ("trunc", .trunc, 1, 2), ("min", .least, 1, 1000000), ("max", .greatest, 1, 1000000)]

namespace Grammar
open Optimization.MathProg.Parser

/-- A reader for the levels. -/
abbrev Reader := Level → Parser Typed

section
variable (read : Reader)

/-! ### Tuples and domains -/

/-- One component of a tuple, a new name if names are allowed. -/
def slot : Parser Slot := do
  let expression : Parser Slot := return .bound (← (← read .disjunction).simple)
  match ← peek, ← second with
  | some (.name s), some (.mark m) => do
    let known ← meaning? s
    if (m == "," || m == ")") && known.isNone then
      skip
      pure (.named s)
    else expression
  | _, _ => expression

/-- A parenthesised list with names in it; nothing, and nothing passed, if it has none. -/
def slots? : Parser (Option (List Slot)) := do
  let before ← get
  skip
  let attempt ←
    match (separated "," (slot read)).run (← get) with
    | .ok (found, after) => do
      set after
      pure found
    | .error _ => pure []
  if attempt.any fun s => s.name?.isSome then
    let names := attempt.filterMap Slot.name?
    require (attempt.length ≠ 1) "name not defined"
    require names.Nodup "duplicate name"
    expect ")"
    pure (some attempt)
  else
    set before
    pure none

/-- The members of a literal set whose first member is given. -/
def literal (first : Typed) : Parser Typed := do
  let n ← first.components
  let further : Parser (Option Expr) := do
    if ← accept "," then
      let x ← read .text
      require (n == (← x.components)) "members have different dimensions"
      pure (some x.expr)
    else pure none
  let rest ← many further (← size)
  require (← atMark "\x7d") "syntax error in literal set"
  pure ⟨.members (first.expr :: rest), .set n⟩

/-- A block that starts with slots. -/
def boundBlock (slots : List Slot) : Parser Block := do
  expect "in"
  let s ← read .union
  require (slots.length == (← s.dimension)) "names do not fit the dimension of the set"
  for name in slots.filterMap Slot.name? do declare name .component
  pure (.mk slots s.expr)

/-- A block without names: a set, or the members of a literal set. -/
def plainBlock : Parser Block := do
  let x ← read .union
  let s ← if x.shape.setDimension?.isSome then pure x else literal read x
  pure (.mk (List.replicate (← s.dimension) .free) s.expr)

/-- A block of a domain. -/
def block : Parser Block := do
  match ← peek, ← second with
  | some (.name s), some (.mark "in") => do
    if (← meaning? s).isNone then
      skip
      boundBlock read [.named s]
    else plainBlock read
  | some (.mark "("), _ => do
    match ← slots? read with
    | some slots => boundBlock read slots
    | none => plainBlock read
  | _, _ => plainBlock read

/-- A domain in braces; its names stay known. -/
def domain : Parser Domain := do
  expect "\x7b"
  let blocks ← separated "," (block read)
  let condition ← if ← accept ":" then some <$> (← read .disjunction).condition else pure none
  expect "\x7d"
  pure (.mk blocks condition)

/-- Something over a domain, whose names are forgotten behind it. -/
def overDomain {α : Type} (body : Domain → Parser α) : Parser α := do
  let d ← domain read
  let x ← body d
  forget d.names
  pure x

/-! ### Primary expressions -/

/-- The subscripts of a name, as many as it has. -/
def subscripts (arity : Nat) : Parser (List Expr) := do
  if ← accept "[" then
    let xs ← separated "," do (← read .text).simple
    expect "]"
    require (arity ≠ 0 && xs.length == arity) "wrong number of subscripts"
    pure xs
  else
    require (arity == 0) "name must be subscripted"
    pure []

/-- A property of a solution behind a name. -/
def property : Parser Bool := do
  if ← accept "." then
    match ← peek with
    | some (.name s) => do
      require ((← get).solved && ["lb", "ub", "status", "val", "dual"].contains s) "invalid suffix"
      skip
      pure true
    | _ => fail "invalid suffix"
  else pure false

/-- A declared name with its subscripts. -/
def reference (name : String) : Parser Typed := do
  skip
  match ← meaning? name with
  | none => fail s!"{name} not defined"
  | some .component => do
    let _ ← subscripts read 0
    pure ⟨.component name, .symbol⟩
  | some (.set arity n) => return ⟨.declared name (← subscripts read arity), .set n⟩
  | some (.parameter arity symbolic) =>
    return ⟨.parameter name (← subscripts read arity), if symbolic then .symbol else .number⟩
  | some (.unknown arity) => do
    let xs ← subscripts read arity
    let _ ← property
    pure ⟨.unknown name xs, if (← get).solved then .number else .linear⟩
  | some (.rows arity) => do
    let xs ← subscripts read arity
    let _ ← property
    require (← get).solved "invalid reference above solve statement"
    pure ⟨.unknown name xs, .number⟩

/-- A function with its arguments. -/
def call (name : String) : Parser Typed := do
  skip
  skip
  if name = "card" then
    let s ← read .union
    let _ ← s.dimension
    expect ")"
    pure ⟨.size s.expr, .number⟩
  else
    match NumberFunction.table.lookup name with
    | none => fail s!"function {name} unknown"
    | some (f, low, high) => do
      let xs ← separated "," do (← read .text).simple
      expect ")"
      require (low ≤ xs.length && xs.length ≤ high) "wrong number of arguments"
      pure ⟨.apply f xs, .number⟩

/-- An iterated sum, product, least or greatest value. -/
def folded (f : Fold) : Parser Typed :=
  overDomain read fun d => do
    let x ← read .product
    require (if f = .sum then x.shape.isLinear else x.shape.isNumber) "integrand has invalid type"
    pure ⟨.fold f d x.expr, x.shape.ofNumbers .number⟩

/-- An expression over a domain. -/
def iterated (name : String) : Parser Typed := do
  skip
  match name with
  | "sum" => folded read .sum
  | "prod" => folded read .product
  | "min" => folded read .least
  | "max" => folded read .greatest
  | "forall" => overDomain read fun d => return ⟨.all d (← (← read .conjunction).condition), .truth⟩
  | "exists" => overDomain read fun d => return ⟨.any d (← (← read .conjunction).condition), .truth⟩
  | "setof" => overDomain read fun d => do
    let x ← read .text
    pure ⟨.image d x.expr, .set (← x.components)⟩
  | _ => fail s!"operator {name} unknown"

/-- A set in braces. -/
def bracedSet : Parser Typed := do
  if (← second) == some (.mark "\x7d") then
    skip
    skip
    pure ⟨.members [], .set 1⟩
  else overDomain read fun d => pure ⟨.build d, .set d.arity⟩

/-- A condition with one or two branches. -/
def branched : Parser Typed := do
  skip
  let c ← (← read .disjunction).condition
  expect "then"
  let x ← read .union
  require x.shape.isBranch "expression following then has invalid type"
  if ← accept "else" then
    let y ← read .union
    require y.shape.isBranch "expression following else has invalid type"
    match x.shape.common? y.shape with
    | some shape => pure ⟨.choose c x.expr (some y.expr), shape⟩
    | none => fail "branches have incompatible types"
  else
    require x.shape.setDimension?.isNone "else missing where expected"
    pure ⟨.choose c x.expr none, x.shape⟩

/-- An expression or a tuple in parentheses. -/
def parenthesized : Parser Typed := do
  skip
  let xs ← separated "," (read .disjunction)
  expect ")"
  match xs with
  | [x] => pure x
  | _ => return ⟨.tuple (← xs.mapM Typed.simple), .tuple xs.length⟩

/-- A primary expression. -/
def primary : Parser Typed := do
  match ← peek with
  | some (.number _ x) => do
    skip
    pure ⟨.symbol (.number x), .number⟩
  | some (.text s) => do
    skip
    pure ⟨.symbol (.text s), .symbol⟩
  | some (.mark "Infinity") => do
    skip
    pure ⟨.symbol (.number greatest), .number⟩
  | some (.mark "(") => parenthesized read
  | some (.mark "\x7b") => bracedSet read
  | some (.mark "if") => branched read
  | some (.name s) => do
    match ← second with
    | some (.mark "(") => call read s
    | some (.mark "\x7b") => iterated read s
    | _ => reference read s
  | _ => fail "syntax error in expression"

/-! ### Levels -/

/-- A power. -/
def power : Parser Typed := do
  let x ← read .primary
  if ← accept "^" then
    let signed := (← atMark "+") || (← atMark "-")
    let y ← if signed then read .sign else read .power
    pure ⟨.combine .power (← x.simple) (← y.simple), .number⟩
  else pure x

/-- An expression with a sign. -/
def sign : Parser Typed := do
  match ← acceptAny ["+", "-"] with
  | some m => do
    let x ← read .power
    let e ← x.linear
    let shape := x.shape.ofNumbers .number
    pure ⟨if m = "-" then .negate e else .combine .mul e (.symbol (.number 1.0)), shape⟩
  | none => read .power

/-- An arithmetic progression. -/
def range : Parser Typed := do
  let first ← read .text
  if ← accept ".." then
    let last ← read .text
    let step ← if ← accept "by" then some <$> (← read .text).simple else pure none
    pure ⟨.range (← first.simple) (← last.simple) step, .set 1⟩
  else pure first

/-- A relation of symbols, tuples and sets. -/
def relation : Parser Typed := do
  let x ← read .union
  match ← acceptAny (Relation.marks.map Prod.fst) with
  | some m => do
    let y ← read .union
    pure ⟨.relate ((Relation.marks.lookup m).getD .eq) (← x.simple) (← y.simple), .truth⟩
  | none => do
    let negated := (← atMark "not") &&
      ((← second) == some (.mark "in") || (← second) == some (.mark "within"))
    if negated then skip
    let found ←
      if ← accept "in" then x.membership (← read .union)
      else if ← accept "within" then x.inclusion (← read .union)
      else pure x
    pure (if negated then ⟨.not found.expr, .truth⟩ else found)

/-- Operands of a level joined by its operators. -/
def joined (ms : List String) (level : Level) (join : String → Typed → Typed → Parser Typed) :
    Parser Typed := do
  chain ms (read level) join (← size) (← read level)

/-- An expression of a level, given a reader for the levels. -/
def level : Level → Parser Typed
  | .disjunction => joined read ["or"] .conjunction Typed.junction
  | .conjunction => joined read ["and"] .negation Typed.junction
  | .negation => do
    if ← accept "not" then return ⟨.not (← (← read .relation).condition), .truth⟩
    else read .relation
  | .relation => relation read
  | .union => joined read ["union", "diff", "symdiff"] .intersection Typed.merging
  | .intersection => joined read ["inter"] .crossing Typed.merging
  | .crossing => joined read ["cross"] .range Typed.merging
  | .range => range read
  | .text => joined read ["&"] .sum Typed.concatenation
  | .sum => joined read ["+", "-", "less"] .product Typed.arithmetic
  | .product => joined read ["*", "/", "div", "mod"] .sign Typed.arithmetic
  | .sign => sign read
  | .power => power read
  | .primary => primary read

end

/-- Levels read to a depth. -/
def readTo : Nat → Reader
  | 0 => fun _ => fail "expression too deep"
  | n + 1 => level (readTo n)

/-- A reader for all levels of what is left of a source. -/
def parse (l : Level) : Parser Typed := do readTo (16 * (← size) + 16) l

/-- A domain, whose names stay known. -/
def parseDomain : Parser Domain := do domain (readTo (16 * (← size) + 16))

end Grammar

end Optimization.MathProg
