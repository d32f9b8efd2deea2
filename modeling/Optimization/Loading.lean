import Optimization.Reconstruction
import Optimization.Text.Decoding

/-!
# Loading models from files

A model file, and possibly a file with its data, is read by an engine, and the problem that comes
out is added to a model. What the engine writes meanwhile goes to an output file: one that is given
and stays, or a temporary one that is removed.

* Missing files and an empty name of the output are refused before any file is touched.
* The output file is emptied before the engine starts, whatever file that is.
* What else the engine does to files while it reads is up to the engine.
-/

namespace Optimization.Loading

/-- Replace the files of the workspace. -/
def setFiles (files : Files) : Action Unit := modify fun w => { w with files }

/-- Write a file. -/
def write (path : String) (content : ByteArray) : Action Unit := do
  setFiles (← .of ((← get).files.write path content))

/-- Remove a file, and note it if that is not possible. -/
def removeNoting (path : String) : Action Unit := do
  match (← get).files.remove path with
  | .ok files => setFiles files
  | .error fault =>
    .note .warning .loader
      (s!"Could not remove temporary file {path}: " ++ fault.message?.getD "")

/-- The text of an output file, which is then removed if that is asked for; if the file cannot be
read, the text says so. -/
def readOutput (path : String) (remove : Bool) : Action String := do
  let text :=
    match (← get).files.read path with
    | .ok content => Text.readText content
    | .error fault => "Could not read output from GLPK MathProg. " ++ fault.message?.getD ""
  if remove then removeNoting path
  pure text

/-- The path of a new temporary file. -/
def temporaryPath (files : Files) : Except Fault String :=
  let count := files.branches.length + files.leaves.length + 1
  let paths := (List.range count).map fun n => s!"{files.scratch}/mathprog_{n}.out"
  match paths.find? files.isFree with
  | some path => pure path
  | none => throw (.noSuchFile s!"{files.scratch}/mathprog_.out")

/-- Open a file, which is made if it is not there. -/
def openFile (path : String) : Action (Ref ByteArray) := do
  let (file, files) ← .of ((← get).files.opened path)
  setFiles files
  pure file

/-- Let an engine read a model, with its output to a stream or to no file. -/
def readModel (engine : Engine) (model : String) (data : Option String)
    (output : Option Stream) : Action (Option (Ref Lifetime)) := do
  let files := (← get).files
  unless files.exists? model do throw (.noSourceFile model)
  let (problem?, s) := (engine.read model data).run ⟨files, output⟩
  setFiles s.files
  match problem? with
  | some p => some <$> Problem.adopt p
  | none => pure none

/-- A data file that counts: an empty path is none. -/
def givenPath (path : Option String) : Option String := path.filter (!·.isEmpty)

/-- Read a problem from a model file without keeping what the engine writes. -/
def readProblem (engine : Engine) (model : String) (data : Option String) :
    Action (Option (Ref Lifetime)) := readModel engine model (givenPath data) none

/-- Read a problem while the engine writes to an output file, which is emptied before. -/
def readProblemTo (engine : Engine) (model : String) (data : Option String) (output : String) :
    Action (Option (Ref Lifetime)) := do
  let file ← openFile output
  setFiles ((← get).files.setContent file ByteArray.empty)
  readModel engine model (givenPath data) (some ⟨file, 0⟩)

/-- Refuse missing files and an output without a name. -/
def check (model : String) (data output : Option String) : Action Unit := do
  let files := (← get).files
  unless files.isFile model do throw (.noModelFile model)
  if let some d := givenPath data then
    unless files.isFile d do throw (.noDataFile d)
  if output == some "" then throw .emptyOutputName

/-- Choose the output file: the given one, or a new temporary one. -/
def openOutput (output : Option String) : Action String := do
  match output with
  | some path => pure path
  | none =>
    let path ← .of (temporaryPath (← get).files)
    let _ ← openFile path
    pure path

/-- Read a model file into a model. -/
def load (engine : Engine) (m : Ref Model) (model : String) (data output : Option String) :
    Action Unit := do
  check model data output
  let path ← openOutput output
  let temporary := output.isNone
  let problem? ←
    match ← (readProblemTo engine model data path).attempt with
    | .ok problem? => pure problem?
    | .error fault => do
      if temporary then setFiles (← .of ((← get).files.remove path))
      throw fault
  let message ← readOutput path temporary
  match problem? with
  | none => throw (.notTranslatable message)
  | some r => Problem.within r (Reconstruction.reconstruct m r)

end Optimization.Loading
