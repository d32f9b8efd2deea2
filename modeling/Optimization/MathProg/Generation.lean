import Optimization.Engine
import Optimization.MathProg.Evaluation
import Optimization.MathProg.Printing

/-!
# Generation of problems

The statements of a model are executed up to the one that asks for a solution: rows are generated,
checks must hold, displayed values must be there, text is printed. The generated rows and the
elements in them make a problem.

* One relation becomes a row for the difference of its sides, whose constant changes sign and
  becomes the bound. Two relations become a row for the middle.
* Columns are the elements that some row has, by the order of the statements that declare them, and
  then by the order in which they were met.
* Two bounds that are almost equal fix a row or a column at the one that is nearer to zero.
* The first objective gives name, direction, weights and constant; objectives are free rows.
* What was printed before a defect is found stays printed.
-/

namespace Optimization.MathProg

/-- The bounds of a row before they are brought into shape. -/
inductive RowBounds
  | free
  | atMost (x : Float)
  | atLeast (x : Float)
  | equal (x : Float)
  | between (lower upper : Float)

/-- A row as it is generated. -/
structure GeneratedRow where
  name : String
  /-- The direction of an objective. -/
  maximize? : Option Bool := none
  terms : List (Nat × Float)
  bounds : RowBounds
  constant : Float := 0.0

/-- A computation that remembers values, may find a defect, and may print. -/
abbrev Execution (α : Type) := StateT Memory (ExceptT Defect Process) α

namespace Generation
open Evaluation

/-- The greatest length of a name of a row or a column. -/
def nameLimit : Nat := 255

/-- A name with subscripts; one that is too long ends in points. -/
def fullName (name : String) (subscripts : Tuple) : String :=
  let s := name ++ tupleText subscripts
  if s.length < nameLimit then s else String.ofList (s.toList.take (nameLimit - 3)) ++ "..."

/-! ### Rows -/

/-- The difference of two sides, the left one evaluated first. -/
def difference (scope : Scope) (x y : Expr) : Eval Linear := do
  let f ← of (← evaluate scope x).toLinear
  let g ← of (← evaluate scope y).toLinear
  of (Linear.combine 1.0 f (-1.0) g)

/-- The terms and bounds that a demand makes. -/
def rowOf (name : String) (scope : Scope) : Demand → Eval GeneratedRow
  | .objective maximize x => do
    let f ← of (← evaluate scope x).toLinear
    pure ⟨name, some maximize, f.terms, .free, f.constant⟩
  | .atMost x y => do
    let f ← difference scope x y
    pure { name, terms := f.terms, bounds := .atMost (-f.constant) }
  | .atLeast x y => do
    let f ← difference scope x y
    pure { name, terms := f.terms, bounds := .atLeast (-f.constant) }
  | .equal x y => do
    let f ← difference scope x y
    pure { name, terms := f.terms, bounds := .equal (-f.constant) }
  | .between l x u => do
    let f ← of (← evaluate scope x).toLinear
    let lower ← numberOf evaluate scope l
    let upper ← numberOf evaluate scope u
    let lower ← of (sub lower f.constant)
    let upper ← of (sub upper f.constant)
    pure { name, terms := f.terms, bounds := .between lower upper }

/-- Find all values of a defined set or parameter, or have the data for it checked. -/
def showDeclared : Statement → Eval Unit
  | .set d => do
    if d.assigned.isSome then
      for (_, key) in ← pointsOf evaluate d.domain do
        let _ ← declaredSet evaluate d.name key
    else if let some (key, _) := (((← get).tables.sets.lookup d.name).getD []).head? then
      let _ ← declaredSet evaluate d.name key
  | .parameter d => do
    if d.assigned.isSome then
      for (_, key) in ← pointsOf evaluate d.domain do
        let _ ← parameterValue evaluate d.name key
    else if let some (key, _) := ((← get).tables.parameter d.name).values.head? then
      let _ ← parameterValue evaluate d.name key
  | _ => pure ()

/-- Show an item. -/
def showItem (scope : Scope) : String ⊕ Expr → Eval Unit
  | .inr e => do
    let _ ← evaluate scope e
  | .inl name => do
    let declared := (← get).statements.find? fun
      | .set d => d.name == name
      | .parameter d => d.name == name
      | _ => false
    match declared with
    | some s => showDeclared s
    | none => pure ()

/-! ### Printing -/

/-- A computation that prints nothing. -/
def quiet {α : Type} (x : Eval α) : Execution α := fun m =>
  match x m with
  | .ok (a, m) => pure (a, m)
  | .error d => throw d

/-- A step of a process. -/
def act {α : Type} (process : Process α) : Execution α := fun m => ExceptT.lift do
  return (← process, m)

/-- Write a text to the output, or at the end of a file. -/
def emit (path : Option String) (s : String) : Execution Unit :=
  match path with
  | none => act (.say s (.done ()))
  | some path => act (.print path true s.toUTF8 fun _ => .done ())

/-- The file that a redirection names; it is emptied unless text is added to it. -/
def redirect (r : Redirection) : Execution String := do
  let path := (← quiet (symbolOf evaluate [] r.file)).plain
  let found ← act (.print path r.atEnd ByteArray.empty .done)
  unless found do quiet (fail s!"unable to open '{path}' for writing")
  pure path

/-- Print pieces of a format. -/
def printPieces (path : Option String) (scope : Scope) : List Piece → Execution Unit
  | [] => pure ()
  | .text s :: rest => do
    emit path s
    printPieces path scope rest
  | .value c e :: rest => do
    emit path (← quiet (do of (c.write (← evaluate scope e))))
    printPieces path scope rest
  | .refused reason :: _ => quiet (fail reason)

/-- Print text for every point of a domain, where the format is evaluated. -/
def printTo (path : Option String) (p : Print) : Execution Unit := do
  for (scope, _) in ← quiet (pointsOf evaluate p.domain) do
    let format := (← quiet (symbolOf evaluate scope p.format)).plain.toList
    printPieces path scope (pieces format.length format p.arguments)

/-- Print text to the output, or to the file that it is redirected to. -/
def print (p : Print) : Execution Unit := do
  printTo (← p.redirection.mapM redirect) p

/-- The rows of a declaration. -/
def rowsOf (d : RowDeclaration) : Eval (List GeneratedRow) := do
  (← pointsOf evaluate d.domain).mapM fun (scope, t) =>
    rowOf (fullName d.name t) scope d.demand

/-- A condition holds at every point of a domain. -/
def check (domain : Option Domain) (condition : Expr) : Eval Unit := do
  for (scope, _) in ← pointsOf evaluate domain do
    unless ← truthOf evaluate scope condition do fail "check failed"

/-- Show items at every point of a domain. -/
def display (domain : Option Domain) (xs : List (String ⊕ Expr)) : Eval Unit := do
  for (scope, _) in ← pointsOf evaluate domain do
    for x in xs do showItem scope x

/-- Execute statements up to the one that asks for a solution. -/
def execute : List Statement → Execution (List GeneratedRow)
  | [] => pure []
  | .solve :: _ => pure []
  | .rows d :: rest => do
    let rows ← quiet (rowsOf d)
    return rows ++ (← execute rest)
  | .check domain c :: rest => do
    quiet (check domain c)
    execute rest
  | .display domain xs :: rest => do
    quiet (display domain xs)
    execute rest
  | .print p :: rest => do
    print p
    execute rest
  | _ :: rest => execute rest

/-! ### Problems -/

/-- Two bounds of different values, or almost equal ones that fix. -/
def spanBetween (lower upper : Float) : Span :=
  if (lower - upper).abs < 1e-9 * (1.0 + lower.abs) then
    let x := if lower.abs <= upper.abs then lower else upper
    .keep .fixed x x
  else .keep .range lower upper

/-- The span of two bounds, of which the greatest floats are none. -/
def span (lower upper : Float) (fixed : Bool) : Span :=
  if lower == -greatest && upper == greatest then .unbounded
  else if upper == greatest then .keep .lower lower 0.0
  else if lower == -greatest then .keep .upper 0.0 upper
  else if fixed then .keep .fixed lower upper
  else spanBetween lower upper

/-- The span of a generated row. -/
def rowSpan : RowBounds → Span
  | .free => .unbounded
  | .atMost x => span (-greatest) x false
  | .atLeast x => span x greatest false
  | .equal x => span x x true
  | .between lower upper => span lower upper false

/-- The span of a column that takes zero and one: the other bounds count where they are narrower. -/
def binarySpan (s : Span) : Span :=
  let lower := if s.type.hasLower && !(s.lower < 0.0) then s.lower else 0.0
  let upper := if s.type.hasUpper && !(s.upper > 1.0) then s.upper else 1.0
  spanBetween lower upper

/-- The declaration of an element. -/
def declarationOf (statements : List Statement) (e : Element) : UnknownDeclaration :=
  (statements.findSome? fun
    | .unknown d => if d.name = e.name then some d else none
    | _ => none).getD { name := e.name }

/-- The column of an element. -/
def columnOf (statements : List Statement) (e : Element) : Column :=
  let d := declarationOf statements e
  let fixed := match d.limits with
    | .exactly _ => true
    | _ => false
  let s := span (e.lower.getD (-greatest)) (e.upper.getD greatest) fixed
  { name := Problem.keptName (fullName e.name e.subscripts)
    span := if d.kind = .binary then binarySpan s else s
    integral := d.kind ≠ .continuous }

/-- The elements that rows have, in the order of their columns. -/
def columnOrder (statements : List Statement) (elements : List Element)
    (rows : List GeneratedRow) : List (Nat × Element) :=
  let used := rows.flatMap fun r => r.terms.map Prod.fst
  let kept := elements.zipIdx.filterMap fun (e, k) =>
    if used.contains k then some (k, e) else none
  statements.flatMap fun
    | .unknown d => kept.filter fun (_, e) => e.name == d.name
    | _ => []

/-- The terms of a row by the numbers of columns, in their order. -/
def entriesOf (order : List (Nat × Element)) (terms : List (Nat × Float)) : List (Nat × Float) :=
  order.zipIdx.filterMap fun ((k, _), j) => (terms.lookup k).map fun x => (j + 1, x)

/-- A problem of generated rows. -/
def problemOf (name : String) (statements : List Statement) (elements : List Element)
    (rows : List GeneratedRow) : Problem :=
  let order := columnOrder statements elements rows
  let objective? := rows.find? fun r => r.maximize?.isSome
  let weights := (objective?.map (·.terms)).getD []
  { name := some name
    objectiveName := objective?.bind fun r => Problem.keptName r.name
    maximize := ((objective?.bind (·.maximize?)).getD false)
    constant := (objective?.map (·.constant)).getD 0.0
    columns := order.map fun (k, e) =>
      { columnOf statements e with weight := (weights.lookup k).getD 0.0 }
    rows := rows.map fun r =>
      { name := Problem.keptName r.name
        span := rowSpan r.bounds
        entries := entriesOf order r.terms } }

/-- The problem of a model and its data. -/
def generate (name : String) (statements : List Statement) (tables : DataTables) :
    ExceptT Defect Process Problem := do
  let (rows, m) ← (execute statements).run { statements, tables }
  pure (problemOf name statements m.elements.toList rows)

end Generation

end Optimization.MathProg
