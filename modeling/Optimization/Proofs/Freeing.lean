import Optimization.Proofs.Runs

/-!
# Problems that were freed

A problem may be used in any way and in any order until it is freed, by a request or at the end of
a scope. It is deleted at that moment and never again, and from then on everything that would
need it is refused before anything happens.

* `Use.ends`, `Use.late` : which uses free a problem, and what comes of a use of a freed one;
* `Refuses`, `Spares` : what single actions do with a freed and with a live problem;
* `use_of_freed`, `spares_use` : one use;
* `Lifespan`, `freed_never_used` : any number of uses.
-/

namespace Optimization.Problem

namespace Use

/-- The use frees the problem. -/
def ends : Use → Bool
  | .ask .free | .leave _ => true
  | _ => false

/-- What comes of a use of a freed problem: a few uses do without the problem. A number of new
columns or rows is looked at first, and only numbers can be compared. -/
def late : Use → Except Fault Answer
  | .ask .free | .enter => .ok done
  | .ask .isValid | .leave _ => .ok (.scalar (.truth false))
  | .ask .text => .ok (.scalar (.text "<optiglpk.Problem (freed)>"))
  | .ask (.addColumns count) | .ask (.addRows count) => atMostZero count >>= fun _ => .error .freed
  | _ => .error .freed

end Use

/-- The workspace after some uses of a problem, whatever became of each of them. -/
def afterUses (engine : Engine) (r : Ref Lifetime) (us : List Use) (w : Workspace) : Workspace :=
  us.foldl (fun w u => (use engine r u).after w) w

/-- A scope is entered, and left whatever became of what was done in it. -/
theorem within_run {α : Type} (engine : Engine) (r : Ref Lifetime) (body : Action α)
    (failure : Option Fault) (w : Workspace) :
    (within r body).run w =
      ((body.run ((use engine r .enter).after w)).1,
        (use engine r (.leave failure)).after (body.after ((use engine r .enter).after w))) :=
  rfl

section

variable {α β : Type} {engine : Engine} {r : Ref Lifetime} {w : Workspace} {p : Problem}

/-! ### Actions on a freed problem -/

/-- An action that needs a problem is refused when the problem is freed, and changes nothing. -/
def Refuses (r : Ref Lifetime) (x : Action α) : Prop :=
  ∀ w, w.problems.get r = .freed → x.run w = (.error .freed, w)

theorem refuses_live (r : Ref Lifetime) : Refuses r (live r) := by
  intro w h
  rw [live, Action.run_bind_of_ok _ (Action.run_get w), h]
  rfl

/-- It is enough that the first step is refused. -/
theorem Refuses.bind {x : Action α} (h : Refuses r x) (f : α → Action β) : Refuses r (x >>= f) :=
  fun w hw => Action.run_bind_of_error f (h w hw)

theorem refuses_ask (r : Ref Lifetime) (f : Problem → Answer) : Refuses r (ask r f) :=
  (refuses_live r).bind _

theorem refuses_askAt (r : Ref Lifetime) (x : Scalar) (f : Problem → Nat → Answer) :
    Refuses r (askAt r x f) :=
  (refuses_live r).bind _

theorem refuses_simplex (engine : Engine) (control : SimplexControl) (r : Ref Lifetime) :
    Refuses r (simplex engine control r) :=
  (refuses_live r).bind _

theorem refuses_search (engine : Engine) (control : SearchControl) (r : Ref Lifetime) :
    Refuses r (search engine control r) :=
  (refuses_live r).bind _

/-- Also when nothing is to be added the problem is needed. -/
theorem extend_of_freed (h : w.problems.get r = .freed) (count : Scalar) (size : Problem → Nat)
    (add : Problem → Nat → Problem) :
    (extend r count size add).run w = (atMostZero count >>= fun _ => .error .freed, w) := by
  unfold extend
  cases hcount : atMostZero count with
  | error fault => exact Action.run_bind_of_error _ (Action.run_of _ w)
  | ok few =>
    exact (Action.run_bind_of_ok _ (Action.run_of _ w)).trans
      (Action.run_bind_of_error _ (refuses_live r w h))

theorem release_of_freed (h : w.problems.get r = .freed) : release r w = w := by
  rw [release, h]

/-- **A freed problem is not used.** A few uses do without it, and the others are refused; nothing
changes. -/
theorem use_of_freed (h : w.problems.get r = .freed) (engine : Engine) (u : Use) :
    (use engine r u).run w = (u.late, w) := by
  have hfree : (free r).run w = (.ok ⟨⟩, w) := by
    rw [free, Action.run_modify, release_of_freed h]
  have hstate : (get : Action Workspace).run w = (.ok w, w) := Action.run_get w
  cases u with
  | simplex control => exact (refuses_simplex engine control r).bind _ w h
  | search control => exact (refuses_search engine control r).bind _ w h
  | enter => rfl
  | leave failure => exact Action.run_bind_of_ok _ hfree
  | ask request =>
    cases request with
    | free => exact Action.run_bind_of_ok _ hfree
    | isValid | text =>
      refine (Action.run_bind_of_ok _ hstate).trans ?_
      rw [h]
      rfl
    | addColumns count | addRows count => exact extend_of_freed h count _ _
    | name | rowCount | columnCount | nonzeroCount | isMixedInteger | objectiveName | isMaximize
    | matrix | status | integralStatus | objectiveValue | integralObjectiveValue =>
      exact refuses_ask r _ w h
    | columnName j | rowName j | columnBounds j | rowBounds j | columnKind j | weight j
    | matrixRow j | columnValue j | integralColumnValue j =>
      exact refuses_askAt r j _ w h
    | simplex => exact (refuses_simplex engine {} r).bind _ w h
    | search => exact (refuses_search engine {} r).bind _ w h
    | setColumn | setRow | setObjective | setWeight | loadMatrix =>
      exact (refuses_live r).bind _ w h

/-! ### Actions on a live problem -/

/-- A problem is still live, and nothing happened to other problems and to models. -/
structure StillLive (r : Ref Lifetime) (w v : Workspace) : Prop where
  live : ∃ p, v.problems.get? r = some (.live p)
  others : ∀ q, q ≠ r → v.problems.get? q = w.problems.get? q
  deletions : v.deletions = w.deletions
  models : v.models = w.models

/-- A live problem is spared. -/
def Spared (r : Ref Lifetime) (w v : Workspace) : Prop :=
  ∀ p, w.problems.get? r = some (.live p) → StillLive r w v

instance spared_steady (r : Ref Lifetime) : Action.Steady (Spared r) where
  refl _ p hp := ⟨⟨p, hp⟩, fun _ _ => rfl, rfl, rfl⟩
  trans huv hvw p hp := by
    have hfirst := huv p hp
    obtain ⟨p', hp'⟩ := hfirst.live
    have hsecond := hvw p' hp'
    exact ⟨hsecond.live, fun q hq => (hsecond.others q hq).trans (hfirst.others q hq),
      hsecond.deletions.trans hfirst.deletions, hsecond.models.trans hfirst.models⟩

/-- An action that leaves a live problem live and deletes nothing. -/
abbrev Spares (r : Ref Lifetime) (x : Action α) : Prop := Action.Along (Spared r) x

theorem spares_live (r : Ref Lifetime) : Spares r (live r) := by
  intro w p hp
  rw [Action.after, live_run hp]
  exact Action.Steady.refl (R := Spared r) w p hp

theorem spares_store (r : Ref Lifetime) (p : Problem) : Spares r (store r p) :=
  fun _ _ hp => ⟨⟨p, Store.get?_put_self hp⟩, fun _ hq => Store.get?_put_of_ne _ hq, rfl, rfl⟩

theorem spares_change (r : Ref Lifetime) (f : Problem → Problem) : Spares r (change r f) :=
  (spares_live r).bind fun _ => spares_store r _

theorem spares_ask (r : Ref Lifetime) (f : Problem → Answer) : Spares r (ask r f) :=
  (spares_live r).bind fun _ => .pure _

theorem spares_askAt (r : Ref Lifetime) (x : Scalar) (f : Problem → Nat → Answer) :
    Spares r (askAt r x f) :=
  (spares_live r).bind fun _ => (Action.Along.of _).bind fun _ => .pure _

theorem spares_recordCall (r : Ref Lifetime) (method : Method) (run : Run) :
    Spares r (recordCall r method run) :=
  fun _ p hp => ⟨⟨p, hp⟩, fun _ _ => rfl, rfl, rfl⟩

theorem spares_simplex (engine : Engine) (control : SimplexControl) (r : Ref Lifetime) :
    Spares r (simplex engine control r) :=
  (spares_live r).bind fun _ => (spares_recordCall r _ _).bind fun _ =>
    (spares_change r _).bind fun _ => .pure _

theorem spares_search (engine : Engine) (control : SearchControl) (r : Ref Lifetime) :
    Spares r (search engine control r) :=
  (spares_live r).bind fun _ => (spares_recordCall r _ _).bind fun _ =>
    (spares_change r _).bind fun _ => .pure _

theorem spares_extend (r : Ref Lifetime) (count : Scalar) (size : Problem → Nat)
    (add : Problem → Nat → Problem) : Spares r (extend r count size add) := by
  refine (Action.Along.of _).bind fun few => (spares_live r).bind fun p => ?_
  cases few with
  | true => exact .pure _
  | false => exact (Action.Along.of _).bind fun n => (spares_store r _).bind fun _ => .pure _

theorem spares_loadArrays (r : Ref Lifetime) (a : ParallelArrays) :
    Spares r (loadArrays r a) := by
  refine (spares_live r).bind fun p => ?_
  split
  · exact .of (.error .unequalLengths)
  · exact spares_store r _

theorem spares_requestColumn (r : Ref Lifetime) (j name : Scalar) (type : BoundType)
    (lower upper kind : Scalar) : Spares r (requestColumn r j name type lower upper kind) :=
  (spares_live r).bind fun _ => (Action.Along.of _).bind fun _ => (Action.Along.of _).bind fun _ =>
    (spares_change r _).bind fun _ => (Action.Along.of _).bind fun _ => (Action.Along.of _).bind fun _ =>
      (spares_change r _).bind fun _ => (Action.Along.of _).bind fun _ =>
        (spares_change r _).bind fun _ => .pure _

theorem spares_requestRow (r : Ref Lifetime) (i name : Scalar) (type : BoundType)
    (lower upper : Scalar) : Spares r (requestRow r i name type lower upper) :=
  (spares_live r).bind fun _ => (Action.Along.of _).bind fun _ => (Action.Along.of _).bind fun _ =>
    (spares_change r _).bind fun _ => (Action.Along.of _).bind fun _ => (Action.Along.of _).bind fun _ =>
      (spares_change r _).bind fun _ => .pure _

/-- A use that does not free a problem. -/
theorem spares_use (engine : Engine) (r : Ref Lifetime) {u : Use} (hu : u.ends = false) :
    Spares r (use engine r u) := by
  cases u with
  | simplex control => exact (spares_simplex engine control r).bind fun _ => .pure _
  | search control => exact (spares_search engine control r).bind fun _ => .pure _
  | enter => exact .pure _
  | leave failure => cases hu
  | ask request =>
    cases request with
    | free => cases hu
    | isValid | text =>
      refine .of_after fun w => ?_
      rw [Action.after, use, answer, Action.run_bind_of_ok _ (Action.run_get w)]
      split <;> rfl
    | addColumns count | addRows count => exact spares_extend r count _ _
    | name | rowCount | columnCount | nonzeroCount | isMixedInteger | objectiveName | isMaximize
    | matrix | status | integralStatus | objectiveValue | integralObjectiveValue =>
      exact spares_ask r _
    | columnName j | rowName j | columnBounds j | rowBounds j | columnKind j | weight j
    | matrixRow j | columnValue j | integralColumnValue j =>
      exact spares_askAt r j _
    | simplex => exact (spares_simplex engine {} r).bind fun _ => .pure _
    | search => exact (spares_search engine {} r).bind fun _ => .pure _
    | setColumn j name type lower upper kind => exact spares_requestColumn r j name type _ _ _
    | setRow i name type lower upper => exact spares_requestRow r i name type _ _
    | setObjective name maximize =>
      exact (spares_live r).bind fun _ => (Action.Along.of _).bind fun _ =>
        (spares_change r _).bind fun _ => .pure _
    | setWeight j x =>
      exact (spares_live r).bind fun _ => (Action.Along.of _).bind fun _ => (Action.Along.of _).bind fun _ =>
        (spares_change r _).bind fun _ => .pure _
    | loadMatrix rows columns coefficients =>
      exact (spares_live r).bind fun _ => (Action.Along.of _).bind fun _ => (Action.Along.of _).bind fun _ =>
        (spares_loadArrays r _).bind fun _ => .pure _

theorem release_of_live (hp : w.problems.get? r = some (.live p)) :
    release r w =
      { w with problems := w.problems.put r .freed, deletions := w.deletions ++ [r] } := by
  rw [release, Store.get_of_get? hp]

/-- A use that frees a problem. -/
theorem use_of_ends {u : Use} (hu : u.ends = true) (engine : Engine) (r : Ref Lifetime)
    (w : Workspace) : (use engine r u).after w = release r w := by
  cases u with
  | leave failure => rfl
  | ask request =>
    cases request with
    | free => rfl
    | _ => cases hu
  | _ => cases hu

/-! ### Any number of uses -/

/-- Where a problem stands that was live at `w` and has been freed since if `ended` says so. -/
structure Lifespan (r : Ref Lifetime) (w v : Workspace) (ended : Bool) : Prop where
  /-- The problem is deleted once when it is freed, and never else. -/
  deletions : v.deletions = w.deletions ++ if ended then [r] else []
  /-- It is valid until then, and not afterwards. -/
  valid : ∀ engine, (use engine r (.ask .isValid)).run v = (.ok (.scalar (.truth !ended)), v)
  /-- Afterwards it is not used. -/
  late : ended = true → ∀ engine u, (use engine r u).run v = (u.late, v)

/-- The cell of the problem, which tells all the rest. -/
def InCell (r : Ref Lifetime) (v : Workspace) : Bool → Prop
  | true => v.problems.get r = .freed
  | false => ∃ p, v.problems.get? r = some (.live p)

theorem lifespan_of_inCell {v : Workspace} {ended : Bool} (hcell : InCell r v ended)
    (hdeletions : v.deletions = w.deletions ++ if ended then [r] else []) :
    Lifespan r w v ended := by
  refine ⟨hdeletions, fun engine => ?_, ?_⟩
  · have hstate : (get : Action Workspace).run v = (.ok v, v) := Action.run_get v
    refine (Action.run_bind_of_ok _ hstate).trans ?_
    cases ended with
    | true =>
      rw [show v.problems.get r = .freed from hcell]
      rfl
    | false =>
      obtain ⟨p, hp⟩ := hcell
      rw [Store.get_of_get? hp]
      rfl
  · rintro rfl
    exact use_of_freed hcell

/-- One more use. -/
theorem inCell_use {v : Workspace} {ended : Bool} (hcell : InCell r v ended) (engine : Engine)
    (u : Use) :
    InCell r ((use engine r u).after v) (ended || u.ends) ∧
      ((use engine r u).after v).deletions =
        v.deletions ++ if !ended && u.ends then [r] else [] := by
  cases ended with
  | false =>
    obtain ⟨p, hp⟩ := hcell
    cases hu : u.ends with
    | false =>
      have hspared := spares_use engine r hu v p hp
      exact ⟨hspared.live, hspared.deletions.trans (List.append_nil _).symm⟩
    | true =>
      rw [use_of_ends hu, release_of_live hp]
      exact ⟨Store.get_of_get? (Store.get?_put_self hp), rfl⟩
  | true =>
    rw [Action.after, use_of_freed hcell]
    exact ⟨hcell, (List.append_nil _).symm⟩

theorem inCell_afterUses (engine : Engine) (us : List Use) {v : Workspace} {ended : Bool}
    (hcell : InCell r v ended) (hdeletions : v.deletions = w.deletions ++ if ended then [r] else []) :
    InCell r (afterUses engine r us v) (ended || us.any Use.ends) ∧
      (afterUses engine r us v).deletions =
        w.deletions ++ if ended || us.any Use.ends then [r] else [] := by
  induction us generalizing v ended with
  | nil =>
    rw [List.any_nil, Bool.or_false]
    exact ⟨hcell, hdeletions⟩
  | cons u us ih =>
    obtain ⟨hcell', hdeletions'⟩ := inCell_use hcell engine u
    rw [List.any_cons, ← Bool.or_assoc]
    refine ih hcell' ?_
    rw [hdeletions', hdeletions, List.append_assoc]
    cases ended <;> cases u.ends <;> rfl

/-- **A freed problem is never used.** However a live problem is used, it is deleted when it is
first freed and then never again; it is valid until then and not afterwards, and afterwards all
uses that need it are refused, whatever the engine, and change nothing. That holds for numbers of
new columns and rows at most zero as well. -/
theorem freed_never_used (engine : Engine) (hp : w.problems.get? r = some (.live p))
    (us : List Use) :
    Lifespan r w (afterUses engine r us w) (us.any Use.ends) ∧
      (∀ count : Number, (Use.ask (.addColumns (.number count))).late = .error .freed ∧
        (Use.ask (.addRows (.number count))).late = .error .freed) ∧
      Fault.freed.category = .state ∧ Fault.freed.message? = some "Problem has been freed" := by
  have hcell : InCell r w false := ⟨p, hp⟩
  obtain ⟨hcell, hdeletions⟩ := inCell_afterUses engine us hcell (List.append_nil _).symm
  exact ⟨lifespan_of_inCell hcell hdeletions, fun _ => ⟨rfl, rfl⟩, rfl, rfl⟩

end

/-- An engine that does nothing. -/
def idle : Engine where
  simplex _ _ := {}
  search _ _ := {}
  read _ _ := .done none

/-- A problem gets two columns in a scope that fails, and is freed once more. -/
def sampleUses : List Use :=
  [.enter, .ask (.addColumns (.integer 2)), .leave (some .freed), .ask .free]

theorem sampleUses_freed :
    ((adopt {}).after {}).problems.get? ⟨0⟩ = some (.live {}) ∧
      (afterUses idle ⟨0⟩ sampleUses ((adopt {}).after {})).deletions = [⟨0⟩] ∧
      (use idle ⟨0⟩ (.ask (.addRows (.integer 0)))).run
          (afterUses idle ⟨0⟩ sampleUses ((adopt {}).after {})) =
        (.error .freed, afterUses idle ⟨0⟩ sampleUses ((adopt {}).after {})) := by
  have hlive : ((adopt {}).after {}).problems.get? ⟨0⟩ = some (.live {}) := rfl
  obtain ⟨hspan, -⟩ := freed_never_used idle hlive sampleUses
  exact ⟨hlive, hspan.deletions, hspan.late rfl idle _⟩

end Optimization.Problem
