import Optimization.MathProg.Token

/-!
# Sources of models

A source is the text that is still to be read, as lexemes, together with the names declared so
far. A parser takes lexemes from it, or finds a defect.
-/

namespace Optimization.MathProg

/-- What a name stands for, with the number of its subscripts. -/
inductive Entity
  | component
  | set (arity dimension : Nat)
  | parameter (arity : Nat) (symbolic : Bool)
  | unknown (arity : Nat)
  | rows (arity : Nat)
  deriving DecidableEq

/-- A text to be read, and the names declared so far. -/
structure Source where
  lexemes : List Lexeme
  names : List (String × Entity) := []
  /-- The statement that asks for a solution was read. -/
  solved : Bool := false

/-- A reader of sources. -/
abbrev Parser (α : Type) := StateT Source (Except Defect) α

namespace Parser

/-- Refuse the source. -/
def fail {α : Type} (text : String) : Parser α := fun _ => defect text

/-- Demand something of the source. -/
def require (condition : Bool) (text : String) : Parser Unit :=
  if condition then pure () else fail text

/-- The next token, nothing at the end. -/
def peek : Parser (Option Token) := return (← get).lexemes.head?.map (·.token)

/-- The token behind the next one. -/
def second : Parser (Option Token) := return ((← get).lexemes.drop 1).head?.map (·.token)

/-- The number of lexemes that are left. -/
def size : Parser Nat := return (← get).lexemes.length

/-- Pass the next token. -/
def skip : Parser Unit := modify fun s => { s with lexemes := s.lexemes.drop 1 }

/-- The next token is the mark. -/
def atMark (m : String) : Parser Bool := return (← peek) == some (.mark m)

/-- Pass the mark if it is next. -/
def accept (m : String) : Parser Bool := do
  let found ← atMark m
  if found then skip
  pure found

/-- Pass the mark, which must be next. -/
def expect (m : String) : Parser Unit := do
  let found ← accept m
  require found s!"{m} missing where expected"

/-- Pass the mark that is next, if it is one of the given. -/
def acceptAny (ms : List String) : Parser (Option String) := do
  match ← peek with
  | some (.mark m) =>
    if ms.contains m then
      skip
      pure (some m)
    else pure none
  | _ => pure none

/-- Pass the name if it is next. -/
def acceptName (s : String) : Parser Bool := do
  let found := (← peek) == some (.name s)
  if found then skip
  pure found

/-- What a name stands for. -/
def meaning? (name : String) : Parser (Option Entity) := return (← get).names.lookup name

/-- Let a name stand for something. -/
def declare (name : String) (e : Entity) : Parser Unit :=
  modify fun s => { s with names := (name, e) :: s.names }

/-- Let names stand for nothing. -/
def forget (names : List String) : Parser Unit :=
  modify fun s => { s with names := s.names.filter fun (name, _) => !names.contains name }

/-- A new name, which must stand for nothing yet. -/
def newName : Parser String := do
  match ← peek with
  | some (.name s) => do
    let known ← meaning? s
    require known.isNone s!"{s} multiply declared"
    skip
    pure s
  | _ => fail "symbolic name missing where expected"

/-- Items as long as one is found; the number bounds how many. -/
def many {α : Type} (item : Parser (Option α)) : Nat → Parser (List α)
  | 0 => pure []
  | n + 1 => do
    match ← item with
    | some x => return x :: (← many item n)
    | none => pure []

/-- One or more items with a mark between them. -/
def separated {α : Type} (m : String) (item : Parser α) : Parser (List α) := do
  let first ← item
  let further : Parser (Option α) := do
    if ← accept m then some <$> item else pure none
  return first :: (← many further (← size))

/-- Items joined from the left by the marks between them; the number bounds how many. -/
def chain {α : Type} (ms : List String) (item : Parser α) (join : String → α → α → Parser α) :
    Nat → α → Parser α
  | 0, x => pure x
  | n + 1, x => do
    match ← acceptAny ms with
    | some m => chain ms item join n (← join m x (← item))
    | none => pure x

end Parser

end Optimization.MathProg
