import Optimization.Overrides

/-!
# Translation of a model into a problem

Each variable becomes a column and each constraint a row, in the model's order; the objective's
terms become weights of columns, and the terms of constraints become matrix entries.

* `checkModel` : a model has at most one objective, and all terms are linear;
* `columns`, `objective`, `rows` : the three parts, on an empty problem;
* `translate` : all of it; overrides last for the columns only.

The constant of a constraint is folded into the bounds of its row.
-/

namespace Optimization

/-- What is known about a model after it was translated. -/
structure Translation where
  indexMap : IndexMap
  matrix : Triplets
  mixedInteger : Bool

namespace Translation

/-- The first term that is not linear. -/
def nonlinearTerm? (e : Expression) : Option Term := e.terms.find? fun t => !t.power.isLinear

/-- The objectives' terms must be linear. -/
def checkObjectives (objectives : List Objective) : Except Fault Unit :=
  match objectives.findSome? fun o => nonlinearTerm? o.expression with
  | some t => throw (.nonlinearObjective t.toText)
  | none => pure ()

/-- The fault of a constraint with a term that is not linear. -/
def constraintFault? (c : Constraint) : Option Fault :=
  (nonlinearTerm? c.expression).map fun t => .nonlinearConstraint t.toText (quotedName c.name)

/-- The constraints' terms must be linear. -/
def checkConstraints (constraints : List Constraint) : Except Fault Unit :=
  match constraints.findSome? constraintFault? with
  | some fault => throw fault
  | none => pure ()

/-- Refuse a model that no problem can express. -/
def checkModel (m : Model) (cs : Store Constraint) : Except Fault Unit := do
  if 1 < m.objectives.length then throw .severalObjectives
  checkObjectives m.objectives
  checkConstraints (m.constraints.map cs.get)

/-- The kind of the column of a variable with the given bounds: an integer variable from zero to
one is binary. -/
def columnKind (domain : Domain) (b : Interval) : ColumnKind :=
  match domain with
  | .continuous => .continuous
  | .integer =>
    if b.lower.same (.integer 0) && b.upper.same (.integer 1) then .binary else .integer

/-! ### Columns -/

/-- Shape and bounds of a column with the given bounds. -/
def readSpan (b : Interval) : Except Fault (BoundType × Float × Float) := do
  let lower ← b.lower.toFloat
  let upper ← b.upper.toFloat
  pure (← BoundType.classify lower upper, lower, upper)

/-- Set up the next column for a variable. -/
def putColumn (s : Store Interval) (pm : Problem × IndexMap) (v : Variable) :
    Except Fault (Problem × IndexMap) := do
  let (p, m) := pm
  let b := s.get v.cell
  let (t, lower, upper) ← readSpan b
  let name ← Problem.limitName v.name
  let p := p.setColumn (m.columnCount + 1) name t lower upper (columnKind v.domain b)
  pure (p, ← m.addVariable v)

/-- A column for each variable of a model. -/
def columns (m : Model) (s : Store Interval) (p : Problem) : Except Fault (Problem × IndexMap) :=
  m.decisions.foldlM (putColumn s) (p.addColumns m.decisions.length, {})

/-! ### The objective -/

/-- The weights of columns in an expression. -/
def weights (map : IndexMap) (e : Expression) : Except Fault (List (Nat × Float)) :=
  e.factors.foldlM (fun xs (p, x) => do
    let j ← map.columnOf p.var
    pure (Keyed.put j ((xs.lookup j).getD 0.0 + (← x.toFloat)) xs)) []

/-- Set up the objective of a problem. -/
def putObjective (map : IndexMap) (p : Problem) (o : Objective) : Except Fault Problem := do
  let ws ← weights map o.expression
  let p := ws.foldl (fun p (j, x) => p.setWeight j x) p
  let p := p.setWeight 0 o.expression.constant
  pure (p.setObjective (← Problem.limitName o.name) o.direction.isMaximize)

/-- Set up the objective of a model if it has one. -/
def objective (m : Model) (map : IndexMap) (p : Problem) : Except Fault Problem :=
  match m.objectives.head? with
  | some o => putObjective map p o
  | none => pure p

/-! ### Rows -/

/-- The name of a row: that of its constraint, or one from its number. -/
def rowName (name : Option String) (i : Nat) : String :=
  match name.filter (!·.isEmpty) with
  | some s => s
  | none => s!"r{i}"

/-- The matrix entries of the terms of an expression. -/
def rowEntries (map : IndexMap) (i : Nat) (e : Expression) : Except Fault (List Entry) :=
  e.factors.mapM fun (p, x) => do
    let j ← map.columnOf p.var
    pure ⟨i, j, ← x.toFloat⟩

/-- What the rows are built up in. -/
structure RowState where
  problem : Problem
  indexMap : IndexMap
  matrix : Triplets := {}

/-- Set up the next row for a constraint. -/
def putRow (cs : Store Constraint) (st : RowState) (r : Ref Constraint) :
    Except Fault RowState := do
  let c := cs.get r
  let i := st.indexMap.rowCount + 1
  let (lower, upper) := foldConstant c.lower c.upper c.expression.constant
  let t ← BoundType.classify lower upper
  let name ← Problem.limitName (rowName c.name i)
  let problem := st.problem.setRow i name t lower upper
  let indexMap ← st.indexMap.addConstraint r c.name
  let entries ← rowEntries indexMap i c.expression
  pure ⟨problem, indexMap, entries.foldl Triplets.push st.matrix⟩

/-- A row for each constraint of a model. -/
def rows (m : Model) (cs : Store Constraint) (map : IndexMap) (p : Problem) :
    Except Fault RowState :=
  m.constraints.foldlM (putRow cs) ⟨p.addRows m.constraints.length, map, {}⟩

/-- The objective and the rows of a model whose columns are set up. -/
def complete (m : Model) (cs : Store Constraint) (pm : Problem × IndexMap) :
    Except Fault (Problem × Translation) := do
  let p ← objective m pm.2 pm.1
  let st ← rows m cs pm.2 p
  pure (st.problem, ⟨st.indexMap, st.matrix, m.isMixedInteger⟩)

/-- Translate a model into an empty problem while some variables are fixed. -/
def translate (m : Model) (values : Overrides) (p : Problem) :
    Action (Problem × Translation) := do
  let pm ← values.during m.decisions do
    let w ← get
    .of (columns m w.intervals p)
  let w ← get
  .of (complete m w.constraints pm)

end Translation

end Optimization
