import Optimization.Files
import Optimization.Parameters
import Optimization.Problem.Basic

/-!
# Engines

An engine solves problems and reads models written in a modelling language. What the rest of the
library needs of it is stated here, so that everything that surrounds an engine can be studied for
every behaviour of it.

* `Process` : what an engine does while it reads a model, one step after the other;
* `System` : the files that it reads and writes, and where its output goes;
* `Process.run` : the steps are done.
-/

namespace Optimization

/-- What a run of an engine reports: a return code, zero for success, what it found, the lines it
wrote, and how long it took. -/
structure Run where
  code : Int := 0
  outcome : Outcome := {}
  lines : List String := []
  seconds : Float := 0.0

/-! ### Systems -/

/-- A file that is written from a position on. -/
structure Stream where
  file : Ref ByteArray
  position : Nat := 0

/-- The files, and the stream that the output goes to, if it goes to a file. -/
structure System where
  files : Files
  output : Option Stream := none

/-- Bytes with others written over them from a position on; a gap is filled with zeros. -/
def overlay (old : ByteArray) (position : Nat) (new : ByteArray) : ByteArray :=
  old.extract 0 position ++ ⟨Array.replicate (position - old.size) 0⟩ ++ new ++
    old.extract (position + new.size) old.size

namespace System

/-- Write a text to the output. -/
def say (s : System) (text : String) : System :=
  match s.output with
  | none => s
  | some ⟨file, position⟩ =>
    { files := s.files.setContent file (overlay (s.files.content file) position text.toUTF8)
      output := some ⟨file, position + text.toUTF8.size⟩ }

/-- Write a file, or write at its end. -/
def print (s : System) (path : String) (atEnd : Bool) (content : ByteArray) :
    Except Fault System := do
  let files ← if atEnd then s.files.append path content else s.files.write path content
  pure { s with files }

end System

/-! ### Processes -/

/-- What is done while a model is read. -/
inductive Process (α : Type)
  | done (result : α)
  /-- Write a text to the output. -/
  | say (text : String) (next : Process α)
  /-- Read a file, if it can be read. -/
  | read (path : String) (next : Option ByteArray → Process α)
  /-- Write a file, or write at its end, and see whether it can be written. -/
  | print (path : String) (atEnd : Bool) (content : ByteArray) (next : Bool → Process α)

namespace Process

variable {α β : Type}

/-- One process after the other. -/
def bind : Process α → (α → Process β) → Process β
  | done a, f => f a
  | say text next, f => say text (next.bind f)
  | read path next, f => read path fun content? => (next content?).bind f
  | print path atEnd content next, f => print path atEnd content fun done => (next done).bind f

instance : Monad Process where
  pure := done
  bind := bind

/-- Do the steps of a process. -/
def run : Process α → System → α × System
  | done a, s => (a, s)
  | say text next, s => next.run (s.say text)
  | read path next, s => (next (s.files.read path).toOption).run s
  | print path atEnd content next, s =>
    match s.print path atEnd content with
    | .ok s => (next true).run s
    | .error _ => (next false).run s

end Process

/-- An engine. -/
structure Engine where
  /-- Solve a problem, its integer columns taken as continuous. -/
  simplex : SimplexControl → Problem → Run
  /-- Solve a problem with its integer columns. -/
  search : SearchControl → Problem → Run
  /-- Read a model and, if given, the data that replace its own; there is no problem if they have a
  fault. -/
  read : String → Option String → Process (Option Problem)

end Optimization
