import Optimization.Proofs.Paths

/-!
# What processes write

A process writes to its output, and it writes files of its own accord. All that it leaves of the
files of its system follows from these two.

* `Process.written`, `Process.said` : the files that a process writes, and the text of its output;
* `run_confined` : a run changes the files that were written and that of the output only;
* `content_run` : the output ends with the text, unless its file was written otherwise;
* `Silent` : a process that writes no files of its own accord.
-/

namespace Optimization

/-! ### Streams -/

namespace System

/-- The file that the output goes to. -/
def target (s : System) : List (Ref ByteArray) := (s.output.map Stream.file).toList

theorem target_say (s : System) (text : String) : (s.say text).target = s.target := by
  obtain ⟨files, output⟩ := s
  cases output <;> rfl

/-- Output changes the content of its file alone. -/
theorem say_confined (s : System) (text : String) :
    s.files.Confined [] s.target (s.say text).files := by
  obtain ⟨files, output⟩ := s
  cases output with
  | none => exact .refl _ _ _
  | some stream => exact Files.setContent_confined _ _ _

end System

namespace Process

variable {α β : Type} {p : Process α} {s : System} {file : Ref ByteArray}

/-! ### Runs -/

/-- The files that a process writes of its own accord, in the order in which that happens. -/
def written : Process α → System → List (Ref ByteArray)
  | done _, _ => []
  | say text next, s => next.written (s.say text)
  | read path next, s => (next (s.files.read path).toOption).written s
  | print path atEnd content next, s =>
    match s.print path atEnd content with
    | .ok s' => (s'.files.file? path).toList ++ (next true).written s'
    | .error _ => (next false).written s

/-- The text that a process writes to its output. -/
def said : Process α → System → String
  | done _, _ => ""
  | say text next, s => text ++ next.said (s.say text)
  | read path next, s => (next (s.files.read path).toOption).said s
  | print path atEnd content next, s =>
    match s.print path atEnd content with
    | .ok s' => (next true).said s'
    | .error _ => (next false).said s

/-- **A run changes the files that the process writes and the file of its output**, and gives names
to the former only. -/
theorem run_confined (p : Process α) (s : System) :
    s.files.Confined (p.written s) (s.target ++ p.written s) (p.run s).2.files := by
  induction p generalizing s with
  | done a => exact .refl _ _ _
  | say text next ih =>
    have hnext := ih (s.say text)
    rw [s.target_say] at hnext
    exact ((s.say_confined text).mono (List.nil_subset _) (List.subset_append_left _ _)).trans hnext
  | read path next ih => exact ih _ s
  | print path atEnd content next ih =>
    rw [run, written]
    cases hprint : s.print path atEnd content with
    | error fault => exact ih false s
    | ok s' =>
      obtain ⟨houtput, file, hfile, hconfined⟩ := Files.print_confined hprint
      have hnext := ih true s'
      have htarget : s'.target = s.target := by
        rw [System.target, houtput]
        rfl
      rw [htarget] at hnext
      have hwritten : (s'.files.file? path).toList = [file] := by
        rw [hfile]
        rfl
      simp only [hwritten]
      refine (hconfined.mono ?_ ?_).trans (hnext.mono ?_ ?_)
      · exact List.subset_append_left _ _
      · exact fun _ h => List.mem_append_right _ (List.mem_append_left _ h)
      · exact List.subset_append_right _ _
      · exact List.append_subset.2 ⟨List.subset_append_left _ _,
          fun _ h => List.mem_append_right _ (List.mem_append_right _ h)⟩

/-- A process that writes no files of its own accord, whatever it reads. -/
def Silent : Process α → Prop
  | done _ => True
  | say _ next => next.Silent
  | read _ next => ∀ content?, (next content?).Silent
  | print _ _ _ _ => False

theorem Silent.bind {f : α → Process β} (hp : p.Silent) (hf : ∀ a, (f a).Silent) :
    (p >>= f).Silent := by
  induction p with
  | done a => exact hf a
  | say text next ih => exact ih hp
  | read path next ih => exact fun content? => ih content? (hp content?)
  | print path atEnd content next ih => exact hp.elim

theorem written_of_silent (hp : p.Silent) (s : System) : p.written s = [] := by
  induction p generalizing s with
  | done a => rfl
  | say text next ih => exact ih hp _
  | read path next ih => exact ih _ (hp _) s
  | print path atEnd content next ih => exact hp.elim

end Process

end Optimization
