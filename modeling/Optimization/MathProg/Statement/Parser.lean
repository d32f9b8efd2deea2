import Optimization.MathProg.Grammar
import Optimization.MathProg.Statement.Basic

/-!
# Reading statements

Most statements start with a word of their own; any other name starts rows. A declaration has a new
name, possibly a text that describes it, possibly a domain, and attributes with optional commas.

* A set has one dimension, which the first attribute that needs one settles; it is one otherwise.
* Sets and parameters have at most one definition, given or by default.
* Unknowns and rows come before the statement that asks for a solution, of which there is one.
* Rows have one relation, or two in the same direction with a middle that alone may be linear.
-/

namespace Optimization.MathProg.Statement
open Optimization.MathProg.Parser

/-! ### Parts of statements -/

/-- A domain, if one starts here. -/
def domain? : Parser (Option Domain) := do
  if ← atMark "\x7b" then some <$> Grammar.parseDomain else pure none

/-- A new name and its domain. -/
def head : Parser (String × Option Domain) := do
  let name ← newName
  if let some (.text _) ← peek then skip
  pure (name, ← domain?)

/-- Forget the names of a domain. -/
def close (d : Option Domain) : Parser Unit := forget ((d.map Domain.names).getD [])

/-- Attributes up to the semicolon; the number bounds how many. -/
def attributes {α : Type} (clause : α → Parser α) : Nat → α → Parser α
  | 0, _ => fail "semicolon missing"
  | n + 1, x => do
    let comma ← accept ","
    if comma then attributes clause n (← clause x)
    else if ← accept ";" then pure x
    else attributes clause n (← clause x)

/-- A number or a symbol. -/
def simple : Parser Expr := do (← Grammar.parse .text).simple

/-- A number, a symbol or a linear form. -/
def linear : Parser Typed := do
  let x ← Grammar.parse .text
  let _ ← x.linear
  pure x

/-- A set and its dimension. -/
def setExpression : Parser (Expr × Nat) := do
  let s ← Grammar.parse .union
  pure (s.expr, ← s.dimension)

/-- Pass one of the names. -/
def acceptOneOf (names : List String) : Parser (Option String) := do
  match ← peek with
  | some (.name s) =>
    if names.contains s then
      skip
      pure (some s)
    else pure none
  | _ => pure none

/-! ### Sets -/

/-- A set of tuples for a set whose dimension may still be open, which is zero then. -/
def matching (d : SetDeclaration) : Parser (Expr × SetDeclaration) := do
  let (e, n) ← setExpression
  require (d.dimension == 0 || d.dimension == n) "set expression has a different dimension"
  let d := { d with dimension := n }
  declare d.name (.set (arityOf d.domain) n)
  pure (e, d)

/-- A set has no definition yet. -/
def undefinedSet (d : SetDeclaration) : Parser Unit :=
  require (d.assigned.isNone && d.default.isNone) "at most one definition allowed"

/-- The dimension of a set as it is declared. -/
def declaredDimension : Parser Nat := do
  match ← peek with
  | some (.number _ x) => do
    skip
    require (1.0 <= x && x <= 20.0 && x == x.floor) "dimension must be integer between 1 and 20"
    pure x.toUInt64.toNat
  | _ => fail "dimension must be integer between 1 and 20"

/-- An attribute of a set. -/
def setAttribute (d : SetDeclaration) : Parser SetDeclaration := do
  if ← acceptName "dimen" then
    let n ← declaredDimension
    require (d.dimension == 0) "dimension is known already"
    declare d.name (.set (arityOf d.domain) n)
    pure { d with dimension := n }
  else if (← acceptAny ["within", "in"]).isSome then
    let (e, d) ← matching d
    pure { d with within := d.within ++ [e] }
  else if ← accept ":=" then
    undefinedSet d
    let (e, d) ← matching d
    pure { d with assigned := some e }
  else if ← acceptName "default" then
    undefinedSet d
    let (e, d) ← matching d
    pure { d with default := some e }
  else fail "syntax error in set statement"

/-- A declaration of a set, behind its word. -/
def readSet : Parser Statement := do
  let (name, domain) ← head
  declare name (.set (arityOf domain) 0)
  let d ← attributes setAttribute (← size) { name, domain, dimension := 0 }
  close domain
  let d := if d.dimension = 0 then { d with dimension := 1 } else d
  declare name (.set (arityOf domain) d.dimension)
  pure (.set d)

/-! ### Parameters -/

/-- A parameter has no definition yet. -/
def undefinedParameter (d : ParameterDeclaration) : Parser Unit :=
  require (d.assigned.isNone && d.default.isNone) "at most one definition allowed"

/-- Words that are given at most once, with those that were given. -/
abbrev Worded (α : Type) := List String × α

/-- Give a parameter a kind by a word. -/
def parameterKind (word : String) (d : ParameterDeclaration) : Parser ParameterDeclaration := do
  match word with
  | "symbolic" => do
    require (d.kind = .number) "integer or binary parameter cannot be symbolic"
    require (d.relations.isEmpty && d.sets.isEmpty) "symbolic must come first"
    undefinedParameter d
    declare d.name (.parameter (arityOf d.domain) true)
    pure { d with kind := .symbol }
  | "integer" => do
    require (d.kind ≠ .symbol) "symbolic parameter cannot be integer"
    pure (if d.kind = .binary then d else { d with kind := .integer })
  | _ => do
    require (d.kind ≠ .symbol) "symbolic parameter cannot be binary"
    pure { d with kind := .binary }

/-- An attribute of a parameter. -/
def parameterAttribute :
    Worded ParameterDeclaration → Parser (Worded ParameterDeclaration)
  | (words, d) => do
    if let some word ← acceptOneOf ["integer", "binary", "logical", "symbolic"] then
      let word := if word = "logical" then "binary" else word
      require (!words.contains word) s!"at most one {word} allowed"
      pure (word :: words, ← parameterKind word d)
    else if let some m ← acceptAny (Relation.marks.map Prod.fst) then
      let relation := (Relation.marks.lookup m).getD .eq
      pure (words, { d with relations := d.relations ++ [(relation, ← simple)] })
    else if (← acceptAny ["in", "within"]).isSome then
      let (e, n) ← setExpression
      require (n == 1) "set expression must have dimension 1"
      pure (words, { d with sets := d.sets ++ [e] })
    else if ← accept ":=" then
      undefinedParameter d
      pure (words, { d with assigned := some (← simple) })
    else if ← acceptName "default" then
      undefinedParameter d
      pure (words, { d with default := some (← simple) })
    else fail "syntax error in parameter statement"

/-- A declaration of a parameter, behind its word. -/
def readParameter : Parser Statement := do
  let (name, domain) ← head
  declare name (.parameter (arityOf domain) false)
  let (_, d) ← attributes parameterAttribute (← size) ([], { name, domain })
  close domain
  pure (.parameter d)

/-! ### Unknowns -/

/-- Refuse what belongs before the statement that asks for a solution. -/
def beforeSolve : Parser Unit := do require (!(← get).solved) "statement must precede solve statement"

/-- Add a lower limit, which must be the first. -/
def addLower (x : Expr) : Limits → Parser Limits
  | .between none u => pure (.between (some x) u)
  | _ => fail "at most one lower bound allowed"

/-- Add an upper limit, which must be the first. -/
def addUpper (x : Expr) : Limits → Parser Limits
  | .between l none => pure (.between l (some x))
  | _ => fail "at most one upper bound allowed"

/-- Fix an unknown that has no limit yet. -/
def fix (x : Expr) : Limits → Parser Limits
  | .between none none => pure (.exactly x)
  | _ => fail "at most one fixed value allowed"

/-- An attribute of an unknown. -/
def unknownAttribute : Worded UnknownDeclaration → Parser (Worded UnknownDeclaration)
  | (words, d) => do
    if let some word ← acceptOneOf ["integer", "binary", "logical"] then
      let word := if word = "logical" then "binary" else word
      require (!words.contains word) s!"at most one {word} allowed"
      let kind := if word = "binary" || d.kind = .binary then ColumnKind.binary else .integer
      pure (word :: words, { d with kind })
    else if ← accept ">=" then
      pure (words, { d with limits := ← addLower (← simple) d.limits })
    else if ← accept "<=" then
      pure (words, { d with limits := ← addUpper (← simple) d.limits })
    else if ← accept "=" then
      pure (words, { d with limits := ← fix (← simple) d.limits })
    else fail "syntax error in variable statement"

/-- A declaration of an unknown, behind its word. -/
def readUnknown : Parser Statement := do
  beforeSolve
  let (name, domain) ← head
  declare name (.unknown (arityOf domain))
  let (_, d) ← attributes unknownAttribute (← size) ([], { name, domain })
  close domain
  pure (.unknown d)

/-! ### Rows -/

/-- A demand with one relation. -/
def oneRelation (m : String) (x y : Expr) : Demand :=
  match m with
  | "<=" => .atMost x y
  | ">=" => .atLeast x y
  | _ => .equal x y

/-- A demand with two relations. -/
def twoRelations (m : String) (x y z : Expr) : Demand :=
  if m = "<=" then .between x y z else .between z y x

/-- The demand of rows that are no objective. -/
def demand : Parser Demand := do
  let x ← linear
  let _ ← accept ","
  match ← acceptAny ["<=", ">=", "="] with
  | none => fail "constraint must be equality or inequality"
  | some m => do
    let y ← linear
    let _ ← accept ","
    match ← acceptAny (Relation.marks.map Prod.fst) with
    | none => pure (oneRelation m x.expr y.expr)
    | some m' => do
      require (m' == m && m != "=") "double inequality must have one direction"
      let z ← linear
      require (x.shape ≠ .linear && z.shape ≠ .linear) "outer expression cannot be linear form"
      pure (twoRelations m x.expr y.expr z.expr)

/-- Rows that are no objective, behind their word. -/
def readRows : Parser Statement := do
  beforeSolve
  let (name, domain) ← head
  declare name (.rows (arityOf domain))
  expect ":"
  let demand ← demand
  close domain
  expect ";"
  pure (.rows { name, domain, demand })

/-- An objective, behind its word. -/
def readObjective (maximize : Bool) : Parser Statement := do
  beforeSolve
  let (name, domain) ← head
  declare name (.rows (arityOf domain))
  expect ":"
  let x ← linear
  close domain
  expect ";"
  pure (.rows { name, domain, demand := .objective maximize x.expr })

/-! ### Other statements -/

/-- A check, behind its word. -/
def readCheck : Parser Statement := do
  let domain ← domain?
  let _ ← accept ":"
  let condition ← Grammar.parse .disjunction
  require (condition.shape = .truth) "logical expression expected"
  close domain
  expect ";"
  pure (.check domain condition.expr)

/-- An item to display: a name that stands alone, or an expression. -/
def displayed : Parser (String ⊕ Expr) := do
  match ← peek, ← second with
  | some (.name s), some (.mark m) => do
    if m == "," || m == ";" then
      skip
      match ← meaning? s with
      | none => fail s!"{s} not defined"
      | some (.unknown _) | some (.rows _) => do
        require (← get).solved s!"invalid reference to {s} above solve statement"
        pure (.inl s)
      | some _ => pure (.inl s)
    else return .inr (← Grammar.parse .disjunction).expr
  | _, _ => return .inr (← Grammar.parse .disjunction).expr

/-- A display of values, behind its word. -/
def readDisplay : Parser Statement := do
  let domain ← domain?
  let _ ← accept ":"
  let xs ← separated "," displayed
  close domain
  expect ";"
  pure (.display domain xs)

/-- An argument to print: a number, a symbol or a truth value. -/
def printed : Parser Expr := do
  let x ← Grammar.parse .union
  require x.shape.isTruth "only numeric, symbolic, or logical expression allowed"
  pure x.expr

/-- The file that printed text goes to, if one is given. -/
def redirection : Parser (Option Redirection) := do
  match ← acceptAny [">", ">>"] with
  | none => pure none
  | some m => return some ⟨m == ">>", ← simple⟩

/-- A print by a format, possibly into a file, behind its word. -/
def readPrint : Parser Statement := do
  let domain ← domain?
  let _ ← accept ":"
  let format ← simple
  let arguments ← if ← accept "," then separated "," printed else pure []
  close domain
  let redirection ← redirection
  expect ";"
  pure (.print { domain, format, arguments, redirection })

/-- The statement that asks for a solution, behind its word. -/
def readSolve : Parser Statement := do
  require (!(← get).solved) "at most one solve statement allowed"
  modify fun s => { s with solved := true }
  expect ";"
  pure .solve

/-- What a word starts. -/
def words : List (String × Parser Statement) :=
  [("set", readSet), ("param", readParameter), ("var", readUnknown),
    ("minimize", readObjective false), ("maximize", readObjective true), ("check", readCheck),
    ("display", readDisplay), ("printf", readPrint), ("solve", readSolve)]

/-- The word behind a word that starts rows. -/
def completed : Parser Statement := do
  skip
  let found ← acceptName "to"
  require found "keyword incomplete"
  readRows

/-- A statement, nothing where the statements end. -/
def read? : Parser (Option Statement) := do
  match ← peek with
  | none => pure none
  | some (.name s) =>
    if s = "data" || s = "end" then pure none
    else if s = "subject" || s = "subj" then some <$> completed
    else
      match words.lookup s with
      | some statement => do
        skip
        some <$> statement
      | none => some <$> readRows
  | some (.mark "s.t.") => do
    skip
    some <$> readRows
  | _ => fail "syntax error in model section"

/-- All statements. -/
def readAll : Parser (List Statement) := do many read? (← size)

end Optimization.MathProg.Statement
