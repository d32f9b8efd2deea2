import Optimization.Engine
import Optimization.MathProg.Generation
import Optimization.MathProg.Statement.Parser
import Optimization.Text.Decoding

/-!
# Reading models

A model file holds statements and possibly data behind them; a file of data takes the place of
those. What comes out is a problem, or the defect that was found, and a text that tells how far the
reading came.

* The data of a model are tokens of another kind, so that their text is split anew.
* One token behind the end is looked at, and all other text there is ignored.
-/

namespace Optimization.MathProg.Reading
open Optimization.MathProg.Parser

/-- The lexemes of a text. -/
def source (inData : Bool) (cs : List Char) : Source := { lexemes := Token.lexemes inData cs }

/-- Nothing is left, but for a defect of the text. -/
def finish : Parser Unit := do
  if let some (.invalid text) ← peek then fail text

/-- The end of a model, which may be missing. -/
def modelEnd : Parser Unit := do
  if ← acceptName "end" then
    let _ ← accept ";"
  finish

/-- The end of data, which may be missing. -/
def dataEnd : Parser Unit := do
  if ← Data.acceptImage "end" then
    let _ ← accept ";"
  finish

/-- The data behind a model, whose word is next. -/
def ownData (statements : List Statement) : Parser DataTables := do
  let text := ((← get).lexemes.head?.map (·.rest)).getD []
  set (source true text)
  expect ";"
  let tables ← Data.readAll statements
  dataEnd
  pure tables

/-- The statements of a model, and its data unless they are to be skipped. -/
def model (skipData : Bool) : Parser (List Statement × DataTables) := do
  let statements ← Statement.readAll
  require (!statements.isEmpty) "empty model section not allowed"
  if (← peek) == some (.name "data") then
    if skipData then pure (statements, {}) else return (statements, ← ownData statements)
  else
    modelEnd
    pure (statements, {})

/-- The data of a file of their own. -/
def data (statements : List Statement) : Parser DataTables := do
  if ← Data.acceptImage "data" then expect ";"
  let tables ← Data.readAll statements
  dataEnd
  pure tables

/-! ### Files -/

/-- A word of ASCII letters, digits and underscores at the start of the last part of a path. -/
def problemName (path : String) : String :=
  let isSeparator (c : Char) : Bool := c == '/' || c == '\\' || c == ':'
  let base := (path.toList.reverse.takeWhile fun c => !isSeparator c).reverse
  let word := (base.takeWhile Token.continuesName).take 255
  if word.isEmpty then "Unknown" else String.ofList word

/-- The number of lines of a text. -/
def lineCount (s : String) : Nat := (s.toList.filter (· == '\n')).length

/-- The report on a text that was read. -/
def lineReport (s : String) : String :=
  let n := lineCount s
  toString n ++ (if n = 1 then " line was read\n" else " lines were read\n")

/-- A process that may find a defect. -/
abbrev Reporting (α : Type) := ExceptT Defect Process α

/-- Write a text. -/
def report (s : String) : Reporting Unit := ExceptT.lift (.say s (.done ()))

/-- The text of a defect is written. -/
def reporting {α : Type} (path : String) (x : Reporting α) : Reporting α :=
  tryCatch x fun d => do
    report s!"{path}: {d.text}\nMathProg model processing error\n"
    throw d

/-- A checked result, whose defect is written. -/
def checked {α : Type} (path : String) (x : Checked α) : Reporting α :=
  reporting path (ExceptT.mk (pure x))

/-- The text of what was read of a file. -/
def textOf (path : String) : Option ByteArray → Reporting String
  | some bytes => pure (Text.decode bytes)
  | none => checked path (defect "unable to open file")

/-- The text of a file. -/
def fileText (path : String) : Reporting String := do
  textOf path (← ExceptT.lift (.read path .done))

/-- The problem of the text of a model file, whose data may be read from a file. -/
def problemOf (path : String) (dataPath : Option String) (text : String) : Reporting Problem := do
  let (statements, own) ←
    checked path ((model dataPath.isSome).run' (source false text.toList))
  report (lineReport text)
  let tables ← match dataPath with
    | none => pure own
    | some dataPath => do
      report s!"Reading data section from {dataPath}...\n"
      let text ← fileText dataPath
      let tables ← checked dataPath ((data statements).run' (source true text.toList))
      report (lineReport text)
      pure tables
  let p ← reporting path (Generation.generate (problemName path) statements tables)
  report "Model has been successfully generated\n"
  pure p

/-- The line that tells which model file is read. -/
def heading (path : String) : String := s!"Reading model section from {path}...\n"

/-- Read a model file and its data. -/
def problem (path : String) (dataPath : Option String) : Reporting Problem := do
  report (heading path)
  problemOf path dataPath (← fileText path)

/-- Read a model file and its data; there is no problem if they have a defect. -/
def read (path : String) (dataPath : Option String) : Process (Option Problem) :=
  return (← (problem path dataPath).run).toOption

end Optimization.MathProg.Reading
