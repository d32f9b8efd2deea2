import Optimization.Keyed
import Optimization.MathProg.Source
import Optimization.MathProg.Statement.Basic

/-!
# Data of models

The data of a model are blocks that list members of sets and values of parameters.

* A slice is a tuple with open places; the symbols that follow it fill them in turn.
* A matrix has a heading of columns, then rows that start with a symbol; the symbols of row and
  column fill two open places, in the other order if the block is transposed.
* A tabbing block gives values to several parameters, row by row, and may collect the subscripts
  of its rows into a set.
* No member and no value is given twice, and a name with a definition takes no data.
-/

namespace Optimization.MathProg

/-- The data for a parameter. -/
structure ParameterData where
  default : Option Symbol := none
  values : List (Tuple × Symbol) := []

/-- The data for sets and parameters. -/
structure DataTables where
  sets : List (String × List (Tuple × List Tuple)) := []
  parameters : List (String × ParameterData) := []

/-- A tuple with open places. -/
abbrev Slice := List (Option Symbol)

namespace Slice

/-- The number of open places. -/
def arity (s : Slice) : Nat := (s.filter Option.isNone).length

/-- The slice with all places open. -/
def everything (dimension : Nat) : Slice := List.replicate dimension none

/-- The tuple whose open places are filled in turn. -/
def fill : Slice → List Symbol → Tuple
  | [], _ => []
  | some s :: places, xs => s :: fill places xs
  | none :: places, x :: xs => x :: fill places xs
  | none :: places, [] => fill places []

/-- The tuple of a cell of a matrix. -/
def cell (s : Slice) (transposed : Bool) (row column : Symbol) : Tuple :=
  s.fill (if transposed then [column, row] else [row, column])

end Slice

namespace DataTables

/-- The members of a set with the given subscripts. -/
def members? (t : DataTables) (name : String) (subscripts : Tuple) : Option (List Tuple) :=
  (t.sets.lookup name).bind (·.lookup subscripts)

/-- The data for a parameter. -/
def parameter (t : DataTables) (name : String) : ParameterData :=
  (t.parameters.lookup name).getD {}

/-- Replace the members of a set with the given subscripts. -/
def putMembers (t : DataTables) (name : String) (subscripts : Tuple) (ts : List Tuple) :
    DataTables :=
  let rows := (t.sets.lookup name).getD []
  { t with sets := Keyed.put name (Keyed.put subscripts ts rows) t.sets }

/-- Replace the data for a parameter. -/
def putParameter (t : DataTables) (name : String) (d : ParameterData) : DataTables :=
  { t with parameters := Keyed.put name d t.parameters }

end DataTables

namespace Data
open Optimization.MathProg.Parser

/-! ### Symbols -/

/-- The symbol that a token of data stands for. -/
def symbolOf? : Token → Option Symbol
  | .number _ x => some (.number x)
  | .symbol s => some (.text s)
  | .text s => some (.text s)
  | _ => none

/-- The image of a symbol of data. -/
def image? : Token → Option String
  | .number s _ => some s
  | .symbol s => some s
  | .text s => some s
  | _ => none

/-- Pass the symbol if one is next. -/
def symbol? : Parser (Option Symbol) := do
  match (← peek).bind symbolOf? with
  | some s => do
    skip
    pure (some s)
  | none => pure none

/-- Pass the symbol, which must be next. -/
def symbol : Parser Symbol := do
  match ← symbol? with
  | some s => pure s
  | none => fail "number or symbol missing where expected"

/-- A symbol is next. -/
def atSymbol : Parser Bool := return ((← peek).bind symbolOf?).isSome

/-- Pass a symbol with the given image if it is next. -/
def acceptImage (s : String) : Parser Bool := do
  let found := (← peek).bind image? == some s
  if found then skip
  pure found

/-- Pass the image of a symbol, which must be next. -/
def image : Parser String := do
  match (← peek).bind image? with
  | some s => do
    skip
    pure s
  | none => fail "name missing where expected"

/-- Pass an optional comma. -/
def comma : Parser Unit := do let _ ← accept ","

/-! ### Slices -/

/-- Fill the open places with the symbols that follow; a comma may stand behind each place, behind
the last one only if values follow. -/
def fillIn (valuesFollow : Bool) : Slice → Parser Tuple
  | [] => pure []
  | place :: places => do
    let s ← match place with
      | some s => pure s
      | none => symbol
    if valuesFollow || !places.isEmpty then comma
    return s :: (← fillIn valuesFollow places)

/-- A place of a slice. -/
def place : Parser (Option Symbol) := do
  if ← accept "*" then pure none else some <$> symbol

/-- A slice behind its opening bracket. -/
def slice (closing : String) (dimension : Nat) : Parser Slice := do
  let s ← separated "," place
  expect closing
  require (s.length == dimension) "slice has a wrong dimension"
  pure s

/-- The columns of a matrix. -/
def heading : Parser (List Symbol) := do
  let columns ← many symbol? (← size)
  expect ":="
  pure columns

/-- The sign of a transposed matrix behind its opening parenthesis, and an optional colon. -/
def transposition : Parser Unit := do
  skip
  expect ")"
  let _ ← accept ":"

/-- A parenthesis is next, and behind it the word for a transposed matrix. -/
def atTransposition : Parser Bool :=
  return (← atMark "(") && (← second).bind image? == some "tr"

/-- A matrix fills two open places. -/
def requireMatrix (s : Slice) : Parser Unit :=
  require (s.arity == 2) "slice must specify 2 asterisks"

/-! ### Sets -/

/-- The set with the given name, which takes data. -/
def takingSet (statements : List Statement) (name : String) : Parser SetDeclaration := do
  let found := statements.findSome? fun
    | .set d => if d.name = name then some d else none
    | _ => none
  match found with
  | some d => do
    require d.assigned.isNone s!"{name} needs no data"
    pure d
  | none => fail s!"{name} not a set"

/-- Members of a set with a new one. -/
def addMember (t : Tuple) (ts : List Tuple) : Parser (List Tuple) := do
  require (!ts.contains t) "duplicate tuple detected"
  pure (ts ++ [t])

/-- The cells of a row of a matrix of a set: a plus for a member, a minus for none. -/
def setCells (s : Slice) (transposed : Bool) (row : Symbol) :
    List Symbol → List Tuple → Parser (List Tuple)
  | [], ts => pure ts
  | column :: columns, ts => do
    if ← acceptImage "+" then
      setCells s transposed row columns (← addMember (s.cell transposed row column) ts)
    else if ← acceptImage "-" then setCells s transposed row columns ts
    else fail "plus or minus missing where expected"

/-- The rows of a matrix of a set; the number bounds how many. -/
def setRows (s : Slice) (transposed : Bool) (columns : List Symbol) :
    Nat → List Tuple → Parser (List Tuple)
  | 0, ts => pure ts
  | n + 1, ts => do
    match ← symbol? with
    | some row => setRows s transposed columns n (← setCells s transposed row columns ts)
    | none => pure ts

/-- A matrix of a set. -/
def setMatrix (s : Slice) (transposed : Bool) (ts : List Tuple) : Parser (List Tuple) := do
  requireMatrix s
  let columns ← heading
  setRows s transposed columns (← size) ts

/-- The members of a set up to the semicolon; the number bounds how many steps are made. -/
def setItems (dimension : Nat) : Nat → Slice → Bool → List Tuple → Parser (List Tuple)
  | 0, _, _, _ => fail "semicolon missing"
  | n + 1, s, transposed, ts => do
    comma
    if ← accept ":=" then setItems dimension n s transposed ts
    else if ← atTransposition then
      skip
      transposition
      setItems dimension n s true (← setMatrix s true ts)
    else if ← accept "(" then
      let s ← slice ")" dimension
      let ts ← if s.arity = 0 then addMember (s.fill []) ts else pure ts
      setItems dimension n s false ts
    else if ← atSymbol then
      setItems dimension n s transposed (← addMember (← fillIn false s) ts)
    else if ← accept ":" then setItems dimension n s transposed (← setMatrix s transposed ts)
    else if ← accept ";" then pure ts
    else fail "syntax error in set data block"

/-- Subscripts in brackets. -/
def subscripts : Parser Tuple := do
  if ← accept "[" then
    let xs ← separated "," symbol
    expect "]"
    pure xs
  else pure []

/-- A block for a set, behind its word. -/
def setBlock (statements : List Statement) (t : DataTables) : Parser DataTables := do
  let d ← takingSet statements (← image)
  let key ← subscripts
  require (key.length == arityOf d.domain) "wrong number of subscripts"
  require (t.members? d.name key).isNone s!"{d.name} already defined"
  let ts ← setItems d.dimension (← size) (.everything d.dimension) false []
  pure (t.putMembers d.name key ts)

/-! ### Parameters -/

/-- The parameter with the given name, which takes data and has none yet. -/
def takingParameter (statements : List Statement) (t : DataTables) (name : String) :
    Parser ParameterDeclaration := do
  let found := statements.findSome? fun
    | .parameter d => if d.name = name then some d else none
    | _ => none
  match found with
  | some d => do
    require d.assigned.isNone s!"{name} needs no data"
    require (t.parameters.lookup name).isNone s!"{name} already provided with data"
    pure d
  | none => fail s!"{name} not a parameter"

/-- Data for a parameter with a new value for the given subscripts, which is next. -/
def addValue (d : ParameterDeclaration) (key : Tuple) (p : ParameterData) :
    Parser ParameterData := do
  require (p.values.lookup key).isNone s!"{d.name} already defined"
  let value ← symbol
  match d.kind, value with
  | .symbol, _ | _, .number _ => pure { p with values := p.values ++ [(key, value)] }
  | _, _ => fail s!"{d.name} requires numeric data"

/-- Data for a parameter with a default value, which its declaration must not have. -/
def addDefault (d : ParameterDeclaration) (value : Option Symbol) : Parser ParameterData := do
  require (value.isNone || d.default.isNone) s!"{d.name} has a default value already"
  pure { default := value }

/-- A default value behind its word, if the word is next. -/
def default? : Parser (Option Symbol) := do
  if ← acceptImage "default" then some <$> symbol else pure none

/-- The cells of a row of a matrix of a parameter; a point stands for no value. -/
def valueCells (d : ParameterDeclaration) (s : Slice) (transposed : Bool) (row : Symbol) :
    List Symbol → ParameterData → Parser ParameterData
  | [], p => pure p
  | column :: columns, p => do
    if ← acceptImage "." then valueCells d s transposed row columns p
    else valueCells d s transposed row columns (← addValue d (s.cell transposed row column) p)

/-- The rows of a matrix of a parameter; the number bounds how many. -/
def valueRows (d : ParameterDeclaration) (s : Slice) (transposed : Bool) (columns : List Symbol) :
    Nat → ParameterData → Parser ParameterData
  | 0, p => pure p
  | n + 1, p => do
    match ← symbol? with
    | some row => valueRows d s transposed columns n (← valueCells d s transposed row columns p)
    | none => pure p

/-- A matrix of a parameter. -/
def valueMatrix (d : ParameterDeclaration) (s : Slice) (transposed : Bool) (p : ParameterData) :
    Parser ParameterData := do
  requireMatrix s
  let columns ← heading
  valueRows d s transposed columns (← size) p

/-- The values of a parameter up to the semicolon; the number bounds how many steps are made. -/
def valueItems (d : ParameterDeclaration) :
    Nat → Slice → Bool → ParameterData → Parser ParameterData
  | 0, _, _, _ => fail "semicolon missing"
  | n + 1, s, transposed, p => do
    comma
    if ← accept ":=" then valueItems d n s transposed p
    else if ← accept "[" then
      valueItems d n (← slice "]" (arityOf d.domain)) false p
    else if ← atSymbol then
      let key ← fillIn true s
      valueItems d n s transposed (← addValue d key p)
    else if ← accept ":" then valueItems d n s transposed (← valueMatrix d s transposed p)
    else if ← atTransposition then
      skip
      transposition
      valueItems d n s true (← valueMatrix d s true p)
    else if ← accept ";" then pure p
    else fail "syntax error in parameter data block"

/-! ### Tabbing blocks -/

/-- The simple set that collects the subscripts of a tabbing block, if one is named. -/
def collecting? (statements : List Statement) (t : DataTables) :
    Parser (Option SetDeclaration) := do
  if (← atSymbol) && (← second) == some (.mark ":") then
    let d ← takingSet statements (← image)
    skip
    require (arityOf d.domain == 0) s!"{d.name} must be a simple set"
    require (t.members? d.name []).isNone s!"{d.name} already defined"
    pure (some d)
  else pure none

/-- The parameters of a tabbing block up to the assignment, with the default value that they get;
the number bounds how many. -/
def columns (statements : List Statement) (value : Option Symbol) :
    Nat → DataTables → List ParameterDeclaration →
      Parser (DataTables × List ParameterDeclaration)
  | 0, _, _ => fail "assignment missing"
  | n + 1, t, ds => do
    if ← accept ":=" then pure (t, ds)
    else
      let d ← takingParameter statements t (← image)
      require (arityOf d.domain != 0) s!"{d.name} not a subscripted parameter"
      let p ← addDefault d value
      comma
      columns statements value n (t.putParameter d.name p) (ds ++ [d])

/-- The values of a row of a tabbing block; a comma may stand between a value and the next one, but
not behind a point. -/
def rowValues (key : Tuple) : List ParameterDeclaration → DataTables → Parser DataTables
  | [], t => pure t
  | d :: ds, t => do
    if ← acceptImage "." then rowValues key ds t
    else
      let p ← addValue d key (t.parameter d.name)
      unless ds.isEmpty do comma
      rowValues key ds (t.putParameter d.name p)

/-- Pass a comma that a symbol follows. -/
def commaBeforeSymbol : Parser Unit := do
  if ((← second).bind symbolOf?).isSome then comma

/-- The rows of a tabbing block; the number bounds how many. -/
def tabbingRows (collecting : Option SetDeclaration) (dimension : Nat)
    (ds : List ParameterDeclaration) : Nat → DataTables → Parser DataTables
  | 0, t => pure t
  | n + 1, t => do
    if ← atSymbol then
      let key ← fillIn true (.everything dimension)
      let t ← match collecting with
        | some s => do
          let ts ← addMember key ((t.members? s.name []).getD [])
          pure (t.putMembers s.name [] ts)
        | none => pure t
      let t ← rowValues key ds t
      commaBeforeSymbol
      tabbingRows collecting dimension ds n t
    else pure t

/-- A block for several parameters, behind the colon. -/
def tabbingBlock (statements : List Statement) (value : Option Symbol) (t : DataTables) :
    Parser DataTables := do
  comma
  let collecting ← collecting? statements t
  let t := match collecting with
    | some s => t.putMembers s.name [] []
    | none => t
  let (t, ds) ← columns statements value (← size) t []
  comma
  let dimensions :=
    (collecting.map (·.dimension)).toList ++ ds.map fun d => arityOf d.domain
  match dimensions with
  | [] => fail "at least one parameter name required"
  | dimension :: others => do
    require (!ds.isEmpty) "at least one parameter name required"
    require (others.all (· == dimension)) "parameters have different dimensions"
    let t ← tabbingRows collecting dimension ds (← size) t
    expect ";"
    pure t

/-- A block for parameters, behind its word. -/
def parameterBlock (statements : List Statement) (t : DataTables) : Parser DataTables := do
  let value ← default?
  if ← accept ":" then tabbingBlock statements value t
  else
    require value.isNone "colon missing where expected"
    let d ← takingParameter statements t (← image)
    let p ← addDefault d (← default?)
    let p ← valueItems d (← size) (.everything (arityOf d.domain)) false p
    pure (t.putParameter d.name p)

/-! ### Blocks -/

/-- All blocks up to the end of the data; the number bounds how many. -/
def blocks (statements : List Statement) : Nat → DataTables → Parser DataTables
  | 0, t => pure t
  | n + 1, t => do
    if (← peek).isNone || (← peek).bind image? == some "end" then pure t
    else if ← acceptImage "set" then blocks statements n (← setBlock statements t)
    else if ← acceptImage "param" then blocks statements n (← parameterBlock statements t)
    else fail "syntax error in data section"

/-- All blocks of a source of data. -/
def readAll (statements : List Statement) : Parser DataTables := do
  blocks statements ((← size) + 1) {}

end Data

end Optimization.MathProg
