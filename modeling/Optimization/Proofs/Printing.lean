import Optimization.MathProg.Reading
import Optimization.Proofs.Processes

/-!
# Which files a model makes its reader write

Reading a model written in MathProg writes no files of its own accord, but for the print statements
of the model that are redirected to a file.

* `Mute` : a computation that writes no files, whatever it reads;
* `mute_execute` : statements without redirected prints are executed without writing files;
* `read_written` : a model without redirected prints is read without writing files.
-/

namespace Optimization.MathProg

variable {α β : Type}

/-! ### Mute computations -/

/-- A computation that writes no files, whatever it reads. -/
def Mute (x : ExceptT Defect Process α) : Prop := x.run.Silent

namespace Mute

theorem pure (a : α) : Mute (Pure.pure a) := trivial

theorem throw (d : Defect) : Mute (MonadExcept.throw d : ExceptT Defect Process α) := trivial

theorem bind {x : ExceptT Defect Process α} {f : α → ExceptT Defect Process β} (hx : Mute x)
    (hf : ∀ a, Mute (f a)) : Mute (x >>= f) := by
  refine Process.Silent.bind hx fun result => ?_
  cases result with
  | ok a => exact hf a
  | error d => exact Mute.throw d

theorem tryCatch {x : ExceptT Defect Process α} {f : Defect → ExceptT Defect Process α}
    (hx : Mute x) (hf : ∀ d, Mute (f d)) : Mute (MonadExcept.tryCatch x f) := by
  refine Process.Silent.bind hx fun result => ?_
  cases result with
  | ok a => exact Mute.pure a
  | error d => exact hf d

theorem of (x : Checked α) : Mute (ExceptT.mk (Pure.pure x)) := trivial

end Mute

namespace Generation

/-! ### Execution -/

/-- An execution that writes no files, whatever it remembers and reads. -/
def MuteExecution (x : Execution α) : Prop := ∀ m, Mute (x m)

theorem MuteExecution.pure (a : α) : MuteExecution (Pure.pure a) := fun m => Mute.pure (a, m)

theorem MuteExecution.bind {x : Execution α} {f : α → Execution β} (hx : MuteExecution x)
    (hf : ∀ a, MuteExecution (f a)) : MuteExecution (x >>= f) :=
  fun m => Mute.bind (hx m) fun result => hf result.1 result.2

theorem MuteExecution.forIn {xs : List α} {f : α → PUnit → Execution (ForInStep PUnit)}
    (hf : ∀ x r, MuteExecution (f x r)) (r : PUnit) : MuteExecution (ForIn.forIn xs r f) := by
  induction xs generalizing r with
  | nil => exact .pure r
  | cons x rest ih =>
    rw [List.forIn_cons]
    refine .bind (hf x r) fun step => ?_
    cases step with
    | done r => exact .pure r
    | yield r => exact ih r

/-- Evaluation prints nothing. -/
theorem mute_quiet (x : Eval α) : MuteExecution (quiet x) := by
  intro m
  unfold quiet
  cases x m with
  | ok result => exact Mute.pure result
  | error d => exact Mute.throw d

theorem mute_emit (text : String) : MuteExecution (emit none text) := fun _ => trivial

theorem mute_printPieces (scope : Scope) (ps : List Piece) :
    MuteExecution (printPieces none scope ps) := by
  induction ps with
  | nil => exact .pure ()
  | cons piece rest ih =>
    cases piece with
    | text s => exact .bind (mute_emit s) fun _ => ih
    | value c e => exact .bind (mute_quiet _) fun s => .bind (mute_emit s) fun _ => ih
    | refused reason => exact mute_quiet _

theorem mute_printTo (p : Print) : MuteExecution (printTo none p) := by
  refine .bind (mute_quiet _) fun points => .bind (.forIn ?_ _) fun _ => .pure _
  rintro ⟨scope, t⟩ _
  exact .bind (mute_quiet _) fun _ => .bind (mute_printPieces scope _) fun _ => .pure _

/-- A print that is not redirected goes to the output. -/
theorem mute_print {p : Print} (h : p.redirection = none) : MuteExecution (print p) := by
  unfold print
  rw [h]
  exact mute_printTo p

/-- Some statement is a redirected print. -/
def Redirects (statements : List Statement) : Prop :=
  ∃ p, .print p ∈ statements ∧ p.redirection ≠ none

/-- **Statements without redirected prints are executed without writing files.** -/
theorem mute_execute {statements : List Statement} (h : ¬Redirects statements) :
    MuteExecution (execute statements) := by
  induction statements with
  | nil => exact .pure []
  | cons statement rest ih =>
    have hrest : MuteExecution (execute rest) :=
      ih fun ⟨p, hp, hr⟩ => h ⟨p, List.mem_cons_of_mem _ hp, hr⟩
    cases statement with
    | rows d => exact .bind (mute_quiet _) fun _ => .bind hrest fun _ => .pure _
    | check domain c => exact .bind (mute_quiet _) fun _ => hrest
    | display domain xs => exact .bind (mute_quiet _) fun _ => hrest
    | print p =>
      have hp : p.redirection = none := by
        by_contra hr
        exact h ⟨p, List.mem_cons_self, hr⟩
      exact .bind (mute_print hp) fun _ => hrest
    | solve => exact .pure []
    | set d => exact hrest
    | parameter d => exact hrest
    | unknown d => exact hrest

theorem mute_generate (name : String) {statements : List Statement} (tables : DataTables)
    (h : ¬Redirects statements) : Mute (generate name statements tables) :=
  .bind (mute_execute h _) fun _ => .pure _

end Generation

/-! ### Reading -/

namespace Reading
open Generation (Redirects)

theorem mute_report (text : String) : Mute (report text) := trivial

theorem mute_reporting (path : String) {x : Reporting α} (hx : Mute x) :
    Mute (reporting path x) :=
  .tryCatch hx fun d => .bind (mute_report _) fun _ => .throw d

theorem mute_checked (path : String) (x : Checked α) : Mute (checked path x) :=
  mute_reporting path (.of x)

theorem mute_checked_bind {path : String} {x : Checked α} {f : α → Reporting β}
    (hf : ∀ a, x = .ok a → Mute (f a)) : Mute (checked path x >>= f) := by
  cases x with
  | ok a => exact hf a rfl
  | error d => exact trivial

theorem mute_textOf (path : String) (content? : Option ByteArray) :
    Mute (textOf path content?) := by
  cases content? with
  | some bytes => exact .pure _
  | none => exact mute_checked path _

theorem mute_fileText (path : String) : Mute (fileText path) :=
  .bind (fun _ => trivial) fun content? => mute_textOf path content?

/-- The text is that of a model with a redirected print. -/
def RedirectsIn (skipData : Bool) (text : String) : Prop :=
  ∃ statements own, (model skipData).run' (source false text.toList) = .ok (statements, own) ∧
    Redirects statements

theorem mute_problemOf (path : String) (dataPath : Option String) {text : String}
    (h : ¬RedirectsIn dataPath.isSome text) : Mute (problemOf path dataPath text) := by
  unfold problemOf
  refine mute_checked_bind fun parsed hparsed => ?_
  have hstatements : ¬Redirects parsed.1 := fun hr => h ⟨parsed.1, parsed.2, hparsed, hr⟩
  have hgenerate : ∀ tables, Mute (do
      let p ← reporting path (Generation.generate (problemName path) parsed.1 tables)
      report "Model has been successfully generated\n"
      pure p) := fun tables =>
    .bind (mute_reporting path (Generation.mute_generate _ tables hstatements)) fun _ =>
      .bind (mute_report _) fun _ => .pure _
  refine .bind (mute_report _) fun _ => ?_
  cases dataPath with
  | none => exact hgenerate parsed.2
  | some dataPath =>
    exact .bind (mute_report _) fun _ => .bind (mute_fileText dataPath) fun _ =>
      .bind (mute_checked dataPath _) fun tables => .bind (mute_report _) fun _ => hgenerate tables

/-- **A model without redirected prints is read without writing files.** -/
theorem read_written {path : String} {dataPath : Option String} {s : System}
    (h : ∀ bytes, (s.say (heading path)).files.read path = .ok bytes →
      ¬RedirectsIn dataPath.isSome (Text.decode bytes)) :
    (read path dataPath).written s = [] := by
  have hread : (read path dataPath).written s = (do
      return (← (do problemOf path dataPath (← textOf path
        ((s.say (heading path)).files.read path).toOption) : Reporting Problem).run).toOption :
          Process (Option Problem)).written (s.say (heading path)) := rfl
  rw [hread]
  refine Process.written_of_silent (.bind ?_ ?_) _
  · cases hbytes : (s.say (heading path)).files.read path with
    | error fault =>
      -- the text is a defect
      exact mute_checked_bind fun text htext => nomatch htext
    | ok bytes => exact mute_problemOf path dataPath (h bytes hbytes)
  · exact fun _ => trivial

end Reading

end Optimization.MathProg
