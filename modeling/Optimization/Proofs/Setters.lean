import Optimization.Proofs.Bounding
import Optimization.Proofs.Runs

/-!
# Setters that are refused

A setter of a problem makes its changes in a fixed order, each one as soon as its arguments are
read. A refusal comes from the first change whose arguments are unreadable, and the changes before
it stay.

* `makeParts_run` : changes are made up to the first one that is refused;
* `Setter`, `perform_eq_answer` : the setters, with what the reading of each argument comes to;
* `Setter.Leaves` : what a refused setter has done, `Setter.Keeps` : what it has left alone;
* `refused_leaves` : the whole.

Setters of a single change are refused without a trace. The others are not: `name_set_first` is
about a row that is renamed by a setter that is refused.
-/

namespace Optimization

/-- A computation and then another one are a single step. -/
theorem Action.of_bind {α β : Type} (x : Except Fault α) (f : α → Except Fault β) :
    Action.of (x >>= f) = Action.of x >>= fun a => Action.of (f a) := by
  cases x <;> rfl

namespace Problem

/-! ### Changes in a fixed order -/

/-- A change of a problem, if its arguments are readable. -/
abbrev Part := Except Fault (Problem → Problem)

/-- The first refusal among changes. -/
def refusal? : List Part → Option Fault
  | [] => none
  | .error fault :: _ => some fault
  | .ok _ :: parts => refusal? parts

/-- The changes before the first refusal. -/
def made : List Part → Problem → Problem
  | [], p => p
  | .error _ :: _, p => p
  | .ok f :: parts, p => made parts (f p)

/-- Make changes one by one. -/
def makeParts (r : Ref Lifetime) (parts : List Part) : Action Unit :=
  parts.forM fun part => do change r (← .of part)

variable {r : Ref Lifetime} {w w' : Workspace} {p p' : Problem}

theorem makeParts_nil : makeParts r [] = pure () := rfl

theorem makeParts_cons (part : Part) (parts : List Part) :
    makeParts r (part :: parts) =
      Action.of part >>= fun f => change r f >>= fun _ => makeParts r parts := by
  rw [← bind_assoc]
  rfl

/-- Nothing changes when a problem is replaced by itself. -/
theorem put_self (hp : w.problems.get? r = some (.live p)) :
    { w with problems := w.problems.put r (.live p) } = w := by
  rw [← Store.get_of_get? hp, Store.put_get]

/-- **Changes are made up to the first one that is refused, and stay.** -/
theorem makeParts_run (hp : w.problems.get? r = some (.live p)) (parts : List Part) :
    (makeParts r parts).run w =
      ((refusal? parts).elim (.ok ()) .error,
        { w with problems := w.problems.put r (.live (made parts p)) }) := by
  induction parts generalizing w p with
  | nil =>
    rw [made, put_self hp]
    rfl
  | cons part parts ih =>
    cases part with
    | error fault =>
      rw [made, put_self hp]
      rfl
    | ok f =>
      have hrest := ih (p := f p)
        (w := { w with problems := w.problems.put r (.live (f p)) }) (Store.get?_put_self hp)
      rw [Store.put_put] at hrest
      exact (Action.run_bind_of_ok _ (change_run f hp)).trans hrest

/-! ### Setters -/

/-- A setter of a problem, with what the reading of each argument comes to. -/
inductive Setter
  | column (name : Except Fault String) (j : Except Fault Nat) (type : Except Fault BoundType)
    (lower upper : Except Fault Float) (kind : Except Fault ColumnKind)
  | row (name : Except Fault String) (i : Except Fault Nat) (type : Except Fault BoundType)
    (lower upper : Except Fault Float)
  | objective (name : Except Fault String) (maximize : Except Fault Bool)
  | weight (x : Except Fault Float) (j : Except Fault Nat)
  | matrix (lengths : Except Fault Unit) (arrays : Except Fault ParallelArrays)

/-- Three parallel sequences must have one length. -/
def checkArrays (a : ParallelArrays) : Except Fault Unit :=
  if a.rows.length != a.coefficients.length || a.columns.length != a.coefficients.length then
    throw .unequalLengths
  else pure ()

namespace Setter

/-- The changes of a setter. The name comes first, and the kind of a column last. -/
def parts : Setter → List Part
  | column name j type lower upper kind =>
    [do let name ← name; let j ← j; pure fun p => p.nameColumn j name,
     do let j ← j; let type ← type; let lower ← lower; let upper ← upper
        pure fun p => p.boundColumn j type lower upper,
     do let j ← j; let kind ← kind; pure fun p => p.typeColumn j kind]
  | row name i type lower upper =>
    [do let name ← name; let i ← i; pure fun p => p.nameRow i name,
     do let i ← i; let type ← type; let lower ← lower; let upper ← upper
        pure fun p => p.boundRow i type lower upper]
  | objective name maximize =>
    [do let name ← name; pure fun p => { p with objectiveName := keptName name },
     do let maximize ← maximize; pure fun p => { p with maximize }]
  | weight x j => [do let x ← x; let j ← j; pure fun p => p.setWeight j x]
  | matrix lengths arrays =>
    [do lengths; let a ← arrays; checkArrays a
        pure fun p => p.load (zipEntries a.rows a.columns a.coefficients)]

/-- Make the changes of a setter. -/
def perform (r : Ref Lifetime) (s : Setter) : Action Answer := do
  let _ ← live r
  makeParts r s.parts
  pure done

/-- The setter that a request is. -/
def ofRequest? : Request → Option Setter
  | .setColumn j name type lower upper kind =>
    some (column (limitName name.toText) (position j) (.ok type) lower.toFloat upper.toFloat
      (readKind kind))
  | .setRow i name type lower upper =>
    some (row (limitName name.toText) (position i) (.ok type) lower.toFloat upper.toFloat)
  | .setObjective name maximize => some (objective (limitName name.toText) (.ok maximize.isTrue))
  | .setWeight j x => some (weight x.toFloat (position j))
  | .loadMatrix rows columns coefficients =>
    some (matrix (checkLengths rows columns coefficients) (readArrays rows columns coefficients))
  | _ => none

end Setter

theorem perform_run (hp : w.problems.get? r = some (.live p)) (s : Setter) :
    (s.perform r).run w =
      ((refusal? s.parts).elim (.ok done) .error,
        { w with problems := w.problems.put r (.live (made s.parts p)) }) := by
  rw [Setter.perform, Action.run_bind_of_ok _ (live_run hp), Action.run_bind, makeParts_run hp]
  cases refusal? s.parts <;> rfl

/-- Loading arrays checks their lengths before it changes the matrix. -/
theorem loadArrays_outcome (hp : w.problems.get? r = some (.live p)) (a : ParallelArrays) :
    (loadArrays r a).run w =
      (checkArrays a, { w with
        problems := w.problems.put r (.live (match checkArrays a with
          | .ok _ => p.load (zipEntries a.rows a.columns a.coefficients)
          | .error _ => p)) }) := by
  unfold loadArrays checkArrays
  rw [Action.run_bind_of_ok _ (live_run hp)]
  split_ifs
  · exact congrArg (Prod.mk _) (put_self hp).symm
  · rfl

/-- A request to set something makes the changes of its setter. -/
theorem answer_eq_perform (hp : w.problems.get? r = some (.live p)) (engine : Engine)
    {request : Request} {s : Setter} (h : Setter.ofRequest? request = some s) :
    (answer engine r request).run w = (s.perform r).run w := by
  have hok : ∀ {α β : Type} (a : α) (f : α → Except Fault β), (Except.ok a >>= f) = f a :=
    fun _ _ => rfl
  have hof : ∀ {α β : Type} (a : α) (f : α → Action β), Action.of (.ok a) >>= f = f a :=
    fun _ _ => rfl
  have hpure : ∀ {α : Type} (a : α), Action.of (pure a) = pure a := fun _ => rfl
  unfold Setter.ofRequest? at h
  split at h <;> cases h
  case h_1 j name type lower upper kind =>
    -- an unreadable position is found before anything changes, a readable one is read once
    show (requestColumn r j name type lower upper kind).run w = _
    unfold requestColumn
    cases position j with
    | error fault => cases limitName name.toText <;> rfl
    | ok j =>
      simp only [Setter.perform, Setter.parts, makeParts_cons, makeParts_nil,
        bind_assoc, Action.of_bind, hok, hof, hpure, pure_bind]
  case h_2 i name type lower upper =>
    show (requestRow r i name type lower upper).run w = _
    unfold requestRow
    cases position i with
    | error fault => cases limitName name.toText <;> rfl
    | ok i =>
      simp only [Setter.perform, Setter.parts, makeParts_cons, makeParts_nil,
        bind_assoc, Action.of_bind, hok, hof, hpure, pure_bind]
  case h_3 name maximize =>
    rw [perform_run hp]
    show (live r >>= _).run w = _
    rw [Action.run_bind_of_ok _ (live_run hp)]
    cases limitName name.toText with
    | error fault => exact congrArg (Prod.mk _) (put_self hp).symm
    | ok name => exact Action.run_bind_of_ok _ (change_run _ hp)
  case h_4 =>
    simp only [answer, Setter.perform, Setter.parts, makeParts_cons, makeParts_nil, bind_assoc,
      Action.of_bind, hpure, pure_bind]
  case h_5 rows columns coefficients =>
    rw [perform_run hp]
    show (live r >>= _).run w = _
    rw [Action.run_bind_of_ok _ (live_run hp)]
    cases checkLengths rows columns coefficients with
    | error fault => exact congrArg (Prod.mk _) (put_self hp).symm
    | ok =>
    cases readArrays rows columns coefficients with
    | error fault => exact congrArg (Prod.mk _) (put_self hp).symm
    | ok a =>
      show (loadArrays r a >>= fun _ => _).run w = _
      rw [Action.run_bind, loadArrays_outcome hp, Setter.parts]
      show _ = ((refusal? [checkArrays a >>= _]).elim _ _, { w with
        problems := w.problems.put r (.live (made [checkArrays a >>= _] p)) })
      cases checkArrays a <;> rfl

/-! ### What a refused setter has done -/

namespace Setter

/-- The column that a setter is about. -/
def column? : Setter → Option Nat
  | column _ (.ok j) _ _ _ _ => some j
  | weight _ (.ok j) => some j
  | _ => none

/-- The row that a setter is about. -/
def row? : Setter → Option Nat
  | row _ (.ok i) _ _ _ => some i
  | _ => none

/-- What a refused setter leaves of a problem: nothing is done if an argument of the first change is
unreadable, and otherwise the changes before the unreadable argument stay. -/
inductive Leaves (p : Problem) : Setter → Problem → Prop
  | unchanged {s : Setter} {fault : Fault} (h : s.parts.head? = some (.error fault)) : Leaves p s p
  | columnNamed {name : String} {j : Nat} {type : Except Fault BoundType}
    {lower upper : Except Fault Float} {kind : Except Fault ColumnKind}
    (h : ¬Succeeds type ∨ ¬Succeeds lower ∨ ¬Succeeds upper) :
    Leaves p (column (.ok name) (.ok j) type lower upper kind) (p.nameColumn j name)
  | columnBounded {name : String} {j : Nat} {type : BoundType} {lower upper : Float}
    {fault : Fault} :
    Leaves p (column (.ok name) (.ok j) (.ok type) (.ok lower) (.ok upper) (.error fault))
      ((p.nameColumn j name).boundColumn j type lower upper)
  | rowNamed {name : String} {i : Nat} {type : Except Fault BoundType}
    {lower upper : Except Fault Float} (h : ¬Succeeds type ∨ ¬Succeeds lower ∨ ¬Succeeds upper) :
    Leaves p (row (.ok name) (.ok i) type lower upper) (p.nameRow i name)
  | objectiveNamed {name : String} {fault : Fault} :
    Leaves p (objective (.ok name) (.error fault)) { p with objectiveName := keptName name }

end Setter

/-- A setter of a single change is refused before it. -/
theorem leaves_of_single {s : Setter} {part : Part} {fault : Fault} (hs : s.parts = [part])
    (h : refusal? s.parts = some fault) : s.Leaves p (made s.parts p) := by
  rw [hs] at h ⊢
  cases part with
  | error => exact .unchanged (congrArg List.head? hs)
  | ok => cases h

/-- **The changes before a refusal.** -/
theorem leaves_of_refusal {s : Setter} {fault : Fault} (h : refusal? s.parts = some fault) :
    s.Leaves p (made s.parts p) := by
  cases s with
  | column name j type lower upper kind =>
    cases name with
    | error => exact .unchanged rfl
    | ok name =>
    cases j with
    | error => exact .unchanged rfl
    | ok j =>
    cases type with
    | error => exact .columnNamed (.inl (not_succeeds_error _))
    | ok type =>
    cases lower with
    | error => exact .columnNamed (.inr (.inl (not_succeeds_error _)))
    | ok lower =>
    cases upper with
    | error => exact .columnNamed (.inr (.inr (not_succeeds_error _)))
    | ok upper =>
    cases kind with
    | error => exact .columnBounded
    | ok kind => cases h
  | row name i type lower upper =>
    cases name with
    | error => exact .unchanged rfl
    | ok name =>
    cases i with
    | error => exact .unchanged rfl
    | ok i =>
    cases type with
    | error => exact .rowNamed (.inl (not_succeeds_error _))
    | ok type =>
    cases lower with
    | error => exact .rowNamed (.inr (.inl (not_succeeds_error _)))
    | ok lower =>
    cases upper with
    | error => exact .rowNamed (.inr (.inr (not_succeeds_error _)))
    | ok upper => cases h
  | objective name maximize =>
    cases name with
    | error => exact .unchanged rfl
    | ok name =>
    cases maximize with
    | error => exact .objectiveNamed
    | ok maximize => cases h
  | weight x j => exact leaves_of_single rfl h
  | matrix lengths arrays => exact leaves_of_single rfl h

/-! ### What a refused setter has left alone -/

theorem itemAt_changeAt_of_ne {α : Type} [Inhabited α] (f : α → α) (xs : List α) {i k : Nat}
    (h : i ≠ k) : itemAt (changeAt f xs i) k = itemAt xs k := by
  unfold itemAt changeAt
  split_ifs with hk hi
  · rfl
  · rfl
  · have hne : i - 1 ≠ k - 1 := by omega
    simp [List.getD_eq_getElem?_getD, hne]

/-- What a change keeps of each item is kept of the list. -/
theorem map_changeAt {α β : Type} {f : α → α} {g : α → β} (h : ∀ x, g (f x) = g x) (xs : List α)
    (i : Nat) : (changeAt f xs i).map g = xs.map g := by
  unfold changeAt
  split_ifs
  · rfl
  · apply List.ext_getElem?
    intro k
    simp only [List.getElem?_map, List.getElem?_modify]
    cases xs[k]? with
    | none => rfl
    | some x => by_cases hk : i - 1 = k <;> simp [hk, h]

/-- All but the names and the bounds of columns, the names of rows, and the name of the objective is
the same, and a setter that is about a column or a row has changed no other one. -/
structure Setter.Keeps (s : Setter) (p p' : Problem) : Prop where
  columns : ∀ k, s.column? ≠ some k → p'.column k = p.column k
  rows : ∀ k, s.row? ≠ some k → p'.row k = p.row k
  integral : p'.columns.map (·.integral) = p.columns.map (·.integral)
  weights : p'.columns.map (·.weight) = p.columns.map (·.weight)
  spans : p'.rows.map (·.span) = p.rows.map (·.span)
  entries : p'.rows.map (·.entries) = p.rows.map (·.entries)
  /-- The direction, the constant, the name of the problem, and what engines found. -/
  rest : p' = { p with
    columns := p'.columns, rows := p'.rows, objectiveName := p'.objectiveName }

theorem Setter.Keeps.refl (s : Setter) (p : Problem) : s.Keeps p p :=
  ⟨fun _ _ => rfl, fun _ _ => rfl, rfl, rfl, rfl, rfl, rfl⟩

theorem Setter.Keeps.trans {s : Setter} {p q t : Problem} (hpq : s.Keeps p q) (hqt : s.Keeps q t) :
    s.Keeps p t where
  columns k hk := (hqt.columns k hk).trans (hpq.columns k hk)
  rows k hk := (hqt.rows k hk).trans (hpq.rows k hk)
  integral := hqt.integral.trans hpq.integral
  weights := hqt.weights.trans hpq.weights
  spans := hqt.spans.trans hpq.spans
  entries := hqt.entries.trans hpq.entries
  rest := by
    rw [hqt.rest, hpq.rest]

/-- The matrix is the same. -/
theorem Setter.Keeps.dense_eq {s : Setter} (h : s.Keeps p p') : p'.dense = p.dense := by
  have hcount : p'.columnCount = p.columnCount := by
    simpa [columnCount] using congrArg List.length h.weights
  have hrows : ∀ q : Problem, q.dense = (q.rows.map (·.entries)).map fun es =>
      (List.range q.columnCount).map fun j => coefficientAt es (j + 1) := by
    intro q
    rw [dense, List.map_map]
    rfl
  rw [hrows, hrows, h.entries, hcount]

theorem keeps_changeColumn {s : Setter} {j : Nat} {f : Column → Column}
    (hs : s.column? = some j) (hintegral : ∀ c, (f c).integral = c.integral)
    (hweight : ∀ c, (f c).weight = c.weight) : s.Keeps p (p.changeColumn j f) where
  columns _ hk := itemAt_changeAt_of_ne f p.columns fun h => hk (h ▸ hs)
  rows _ _ := rfl
  integral := map_changeAt hintegral p.columns j
  weights := map_changeAt hweight p.columns j
  spans := rfl
  entries := rfl
  rest := rfl

theorem keeps_changeRow {s : Setter} {i : Nat} {f : Row → Row} (hs : s.row? = some i)
    (hspan : ∀ c, (f c).span = c.span) (hentries : ∀ c, (f c).entries = c.entries) :
    s.Keeps p (p.changeRow i f) where
  columns _ _ := rfl
  rows _ hk := itemAt_changeAt_of_ne f p.rows fun h => hk (h ▸ hs)
  integral := rfl
  weights := rfl
  spans := map_changeAt hspan p.rows i
  entries := map_changeAt hentries p.rows i
  rest := rfl

theorem keeps_nameColumn {s : Setter} {j : Nat} (hs : s.column? = some j) (name : String) :
    s.Keeps p (p.nameColumn j name) :=
  keeps_changeColumn hs (fun _ => rfl) fun _ => rfl

theorem keeps_boundColumn {s : Setter} {j : Nat} (hs : s.column? = some j) (t : BoundType)
    (lower upper : Float) : s.Keeps p (p.boundColumn j t lower upper) :=
  keeps_changeColumn hs (fun _ => rfl) fun _ => rfl

theorem keeps_nameRow {s : Setter} {i : Nat} (hs : s.row? = some i) (name : String) :
    s.Keeps p (p.nameRow i name) :=
  keeps_changeRow hs (fun _ => rfl) fun _ => rfl

theorem Setter.Leaves.keeps {s : Setter} (h : s.Leaves p p') : s.Keeps p p' := by
  cases h with
  | unchanged => exact .refl s p
  | columnNamed => exact keeps_nameColumn rfl _
  | columnBounded => exact (keeps_nameColumn rfl _).trans (keeps_boundColumn rfl _ _ _)
  | rowNamed => exact keeps_nameRow rfl _
  | objectiveNamed => exact ⟨fun _ _ => rfl, fun _ _ => rfl, rfl, rfl, rfl, rfl, rfl⟩

/-- **A refused setter has made the changes before the argument that is unreadable, and no other
ones.** The name of a column or a row comes before its bounds, and the bounds of a column before its
kind. Nothing has changed when the name or the position is unreadable, and setters of a weight or of
the matrix never leave a trace. Requests to set something are such setters. -/
theorem refused_setter_leaves {s : Setter} {fault : Fault}
    (hp : w.problems.get? r = some (.live p)) (h : (s.perform r).run w = (.error fault, w')) :
    (∃ p', w' = { w with problems := w.problems.put r (.live p') } ∧ s.Leaves p p' ∧
      s.Keeps p p' ∧ p'.dense = p.dense) ∧
    ∀ (engine : Engine) (request : Request), Setter.ofRequest? request = some s →
      (answer engine r request).run w = (.error fault, w') := by
  constructor
  · rw [perform_run hp] at h
    cases hrefusal : refusal? s.parts with
    | none =>
      rw [hrefusal] at h
      cases h
    | some fault' =>
      have hleaves := leaves_of_refusal (p := p) hrefusal
      exact ⟨_, (Prod.mk.inj h).2.symm, hleaves, hleaves.keeps, hleaves.keeps.dense_eq⟩
  · intro engine request hs
    rw [answer_eq_perform hp engine hs, h]

/-- A problem with a row. -/
def rowProblem : Problem := { rows := [{ name := some "x" }] }

/-- A workspace with that problem. -/
def rowWorkspace : Workspace := { problems := ({} : Store Lifetime).push (.live rowProblem) }

/-- A setter of the row with a lower bound that is no number. -/
def rowSetter : Setter :=
  .row (.ok "y") (.ok 1) (.ok .lower) (.error (.notAFloat "abc")) (.ok 0.0)

/-- The row is named, and the rest of the problem is what it was. -/
theorem rowSetter_leaves : ∃ w', (rowSetter.perform ⟨0⟩).run rowWorkspace =
      (.error (.notAFloat "abc"), w') ∧
    ∃ p', w' = { rowWorkspace with problems := rowWorkspace.problems.put ⟨0⟩ (.live p') } ∧
      rowSetter.Leaves rowProblem p' ∧ rowSetter.Keeps rowProblem p' ∧
      p'.dense = rowProblem.dense :=
  ⟨_, rfl, (refused_setter_leaves rfl rfl).1⟩

/-- A request with a lower bound that is no number is refused, and yet the row has a new name. -/
theorem name_set_first : ∃ (fault : Fault) (w' : Workspace) (p' : Problem),
    (answer idleEngine ⟨0⟩ (.setRow (.integer 1) (.text "y") .lower (.text "abc")
      (.integer 0))).run rowWorkspace = (.error fault, w') ∧
    w'.problems.get? ⟨0⟩ = some (.live p') ∧
    (rowProblem.row 1).name = some "x" ∧ (p'.row 1).name = some "y" := by
  have hread : Decimal.readFloat? "abc" = none :=
    Option.isNone_iff_eq_none.1 (by decide +kernel)
  have hlower : (Scalar.text "abc").toFloat = .error (.notAFloat "abc") := by
    rw [Scalar.toFloat, hread]
    rfl
  have hs : Setter.ofRequest? (.setRow (.integer 1) (.text "y") .lower (.text "abc") (.integer 0)) =
      some (.row (.ok "y") (.ok 1) (.ok .lower) (.error (.notAFloat "abc"))
        (Number.toFloat (.integer 0))) := by
    rw [Setter.ofRequest?, hlower]
    rfl
  rw [answer_eq_perform rfl idleEngine hs, perform_run rfl]
  exact ⟨_, _, _, rfl, rfl, rfl, rfl⟩

end Problem

end Optimization
