import Optimization.Translation

/-!
# Names that an engine is given

A name is limited in characters before it is given to an engine. An engine keeps names of up to as
many bytes, and stops the whole program when it is given a longer one.

* `Problem.storable` : an engine keeps a name;
* `Handed` : an outcome, and the names that an engine was given on the way to it;
* `Translation.handed` : a translation into a problem;
* `Translation.created`, `Translation.checked` : one into a new problem that is named after the
  model, and the same after the model is checked.
-/

namespace Optimization

/-- An engine keeps a name. -/
def Problem.storable (name : String) : Bool := decide (name.utf8ByteSize ≤ nameLimit)

/-- An outcome, and the names that an engine was given on the way to it. -/
structure Handed (α : Type) where
  outcome : Except Fault α
  names : List String

namespace Handed

variable {α β : Type}

/-- An outcome on the way to which no name is given. -/
def of (x : Except Fault α) : Handed α := ⟨x, []⟩

/-- A step that gives a name to an engine, when what comes before is done and the name is not too
long in characters. -/
def step (x : Except Fault α) (before : Except Fault β) (name : String) : Handed α where
  outcome := x
  names := match before, Problem.limitName name with
    | .ok _, .ok name => [name]
    | _, _ => []

/-- What is given after an outcome; nothing is after a refusal. -/
def later (f : α → Handed β) : Except Fault α → List String
  | .ok a => (f a).names
  | .error _ => []

instance : Monad Handed where
  pure a := of (.ok a)
  bind x f := ⟨x.outcome >>= fun a => (f a).outcome, x.names ++ later f x.outcome⟩

end Handed

namespace Translation

/-- The name of a column is given after its bounds are read. -/
def handColumn (s : Store Interval) (pm : Problem × IndexMap) (v : Variable) :
    Handed (Problem × IndexMap) :=
  .step (putColumn s pm v) (readSpan (s.get v.cell)) v.name

/-- The name of the objective is given after its weights are set. -/
def handObjective (m : Model) (map : IndexMap) (p : Problem) : Handed Problem :=
  match m.objectives.head? with
  | some o => .step (putObjective map p o) (weights map o.expression) o.name
  | none => pure p

/-- The name of a row is given after its bounds have a shape. -/
def handRow (cs : Store Constraint) (st : RowState) (r : Ref Constraint) : Handed RowState :=
  let c := cs.get r
  let bounds := foldConstant c.lower c.upper c.expression.constant
  .step (putRow cs st r) (BoundType.classify bounds.1 bounds.2)
    (rowName c.name (st.indexMap.rowCount + 1))

/-- A translation into an empty problem. -/
def handed (m : Model) (values : Overrides) (cs : Store Constraint) (s : Store Interval)
    (p : Problem) : Handed (Problem × Translation) := do
  let fixed := values.fix m.decisions s
  let start : Except Fault (Problem × IndexMap) := match fixed.2.2 with
    | some fault => throw fault
    | none => pure (p.addColumns m.decisions.length, {})
  let (p, map) ← m.decisions.foldlM (handColumn fixed.2.1) (← .of start)
  let p ← handObjective m map p
  let st ← m.constraints.foldlM (handRow cs) ⟨p.addRows m.constraints.length, map, {}⟩
  pure (st.problem, ⟨st.indexMap, st.matrix, m.isMixedInteger⟩)

/-- A new problem with a name, unless the name is empty. -/
def handCreate (name : Scalar) : Handed Problem :=
  if name.isTrue then
    .step (do pure { name := Problem.keptName (← Problem.limitName name.toText) }) (.ok ())
      name.toText
  else pure {}

/-- A translation into a new problem that is named after the model. -/
def created (m : Model) (values : Overrides) (cs : Store Constraint) (s : Store Interval) :
    Handed (Problem × Translation) := do
  handed m values cs s (← handCreate m.name)

/-- The same for a model that is checked first, as a solver does it. -/
def checked (m : Model) (values : Overrides) (cs : Store Constraint) (s : Store Interval) :
    Handed (Problem × Translation) := do
  let _ ← Handed.of (checkModel m cs)
  created m values cs s

end Translation

end Optimization
