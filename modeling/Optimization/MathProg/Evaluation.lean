import Optimization.MathProg.Data
import Optimization.MathProg.Value

/-!
# Evaluation

Expressions are evaluated against the statements of a model and its data. Values of sets and
parameters are found when they are first needed and remembered; elements of unknowns come into
being when they are first met.

* A value comes from the data, else from the definition, else from a default.
* Subscripts lie in the domain of what they belong to, and values satisfy what is declared of them;
  the data for a name are checked as a whole when the name is first used.
* Of two operands the right one is evaluated first.
* Evaluation is described by one step over an evaluator for the parts; `evaluateTo` ties the knot
  for a depth.
-/

namespace Optimization.MathProg

/-- An element of an unknown, with the limits it has. -/
structure Element where
  name : String
  subscripts : Tuple
  lower : Option Float
  upper : Option Float

/-- What is known so far. -/
structure Memory where
  statements : List Statement
  tables : DataTables
  /-- Names whose data were checked. -/
  checked : List String := []
  sets : List (String × List (Tuple × List Tuple)) := []
  parameters : List (String × List (Tuple × Symbol)) := []
  /-- The elements in the order in which they were met. -/
  elements : Array Element := #[]

/-- A computation that remembers values and may find a defect. -/
abbrev Eval (α : Type) := StateT Memory (Except Defect) α

/-- The symbols that names of components stand for. -/
abbrev Scope := List (String × Symbol)

/-- An evaluator of expressions. -/
abbrev Evaluator := Scope → Expr → Eval Value

namespace Evaluation

/-- A checked result as a computation. -/
def of {α : Type} (x : Checked α) : Eval α := fun m => x.map (·, m)

/-- Refuse a model. -/
def fail {α : Type} (text : String) : Eval α := of (defect text)

/-! ### What is remembered -/

/-- Remember the members of a set. -/
def rememberSet (name : String) (key : Tuple) (ts : List Tuple) : Eval Unit :=
  modify fun m =>
    { m with sets := Keyed.put name ((key, ts) :: (m.sets.lookup name).getD []) m.sets }

/-- Remember a value of a parameter. -/
def rememberParameter (name : String) (key : Tuple) (s : Symbol) : Eval Unit :=
  modify fun m =>
    { m with
      parameters := Keyed.put name ((key, s) :: (m.parameters.lookup name).getD []) m.parameters }

/-- The name is now checked; whether it was before. -/
def markChecked (name : String) : Eval Bool := do
  let m ← get
  if m.checked.contains name then pure true
  else
    set { m with checked := name :: m.checked }
    pure false

/-- The declaration of a set. -/
def findSet (name : String) : Eval SetDeclaration := do
  let found := (← get).statements.findSome? fun
    | .set d => if d.name = name then some d else none
    | _ => none
  match found with
  | some d => pure d
  | none => fail s!"{name} not a set"

/-- The declaration of a parameter. -/
def findParameter (name : String) : Eval ParameterDeclaration := do
  let found := (← get).statements.findSome? fun
    | .parameter d => if d.name = name then some d else none
    | _ => none
  match found with
  | some d => pure d
  | none => fail s!"{name} not a parameter"

/-- The declaration of an unknown. -/
def findUnknown (name : String) : Eval UnknownDeclaration := do
  let found := (← get).statements.findSome? fun
    | .unknown d => if d.name = name then some d else none
    | _ => none
  match found with
  | some d => pure d
  | none => fail s!"{name} not available"

section
variable (eval : Evaluator)

/-- The symbol of an expression. -/
def symbolOf (scope : Scope) (e : Expr) : Eval Symbol := do of (← eval scope e).toSymbol

/-- The number of an expression. -/
def numberOf (scope : Scope) (e : Expr) : Eval Float := do of (← eval scope e).toNumber

/-- The truth of an expression. -/
def truthOf (scope : Scope) (e : Expr) : Eval Bool := do of (← eval scope e).toTruth

/-- The tuple of an expression. -/
def tupleOf (scope : Scope) (e : Expr) : Eval Tuple := do of (← eval scope e).toTuple

/-- The members of an expression. -/
def setOf (scope : Scope) (e : Expr) : Eval (List Tuple) := do of (← eval scope e).toSet

/-- The progression of a range. -/
def progression (scope : Scope) (first last : Expr) (step : Option Expr) : Eval Progression := do
  let first ← numberOf eval scope first
  let last ← numberOf eval scope last
  let step ← match step with
    | some e => numberOf eval scope e
    | none => pure 1.0
  pure ⟨first, last, step⟩

/-- A tuple is a member of a set; a range or a literal set is not listed for this, and the values
over a domain cannot be asked. -/
def isMember (scope : Scope) (t : Tuple) : Expr → Eval Bool
  | .range first last step => do of ((← progression eval scope first last step).contains t)
  | .members es => es.anyM fun e => return (← tupleOf eval scope e) == t
  | .image _ _ => fail "values over a domain cannot be asked for a member"
  | s => return (← setOf eval scope s).contains t

/-! ### Domains -/

/-- The symbols that bound slots ask for. -/
def demands (scope : Scope) (slots : List Slot) : Eval (List (Slot × Option Symbol)) :=
  slots.mapM fun
    | .bound e => return (.bound e, some (← symbolOf eval scope e))
    | s => pure (s, none)

/-- The scope and the taken components when slots meet the components of a member. -/
def meet : List (Slot × Option Symbol) → Tuple → Option (Scope × Tuple)
  | (.named name, _) :: slots, s :: t =>
    (meet slots t).map fun (scope, taken) => ((name, s) :: scope, s :: taken)
  | (_, some s') :: slots, s :: t => if s == s' then meet slots t else none
  | (_, none) :: slots, s :: t => (meet slots t).map fun (scope, taken) => (scope, s :: taken)
  | [], _ => some ([], [])
  | _ :: _, [] => none

/-- The tuple that slots ask for, its own components taken from a list, and the rest of it. -/
def complete : List (Slot × Option Symbol) → Tuple → Tuple × Tuple
  | (_, some s) :: slots, xs =>
    let (t, rest) := complete slots xs
    (s :: t, rest)
  | (_, none) :: slots, x :: xs =>
    let (t, rest) := complete slots xs
    (x :: t, rest)
  | _, xs => ([], xs)

/-- The scope in which a tuple lies in blocks, nothing if it lies outside. -/
def enterBlocks : List Block → Scope → Tuple → Eval (Option Scope)
  | [], scope, _ => pure (some scope)
  | b :: bs, scope, xs => do
    let slots ← demands eval scope b.slots
    let (t, rest) := complete slots xs
    if ← isMember eval scope t b.set then
      match meet slots t with
      | some (named, _) => enterBlocks bs (named ++ scope) rest
      | none => pure none
    else pure none

/-- The scope in which a tuple lies in a domain, nothing if it lies outside. -/
def enter (d : Option Domain) (xs : Tuple) : Eval (Option Scope) := do
  match d with
  | none => pure (some [])
  | some d => do
    match ← enterBlocks eval d.blocks [] xs with
    | none => pure none
    | some scope => do
      match d.condition with
      | none => pure (some scope)
      | some c => return if ← truthOf eval scope c then some scope else none

/-- The scopes and tuples of blocks. -/
def blockPoints : List Block → Scope → Eval (List (Scope × Tuple))
  | [], scope => pure [(scope, [])]
  | b :: bs, scope => do
    let slots ← demands eval scope b.slots
    let ts ← setOf eval scope b.set
    let points ← (ts.filterMap (meet slots)).mapM fun (named, taken) => do
      return (← blockPoints bs (named ++ scope)).map fun (scope, t) => (scope, taken ++ t)
    pure points.flatten

/-- The scopes and tuples of a domain. -/
def points (scope : Scope) (d : Domain) : Eval (List (Scope × Tuple)) := do
  let all ← blockPoints eval d.blocks scope
  match d.condition with
  | none => pure all
  | some c => all.filterM fun (scope, _) => truthOf eval scope c

/-- The scopes and tuples of a domain, of which there is one without a domain. -/
def pointsOf (d : Option Domain) : Eval (List (Scope × Tuple)) :=
  match d with
  | none => pure [([], [])]
  | some d => points eval [] d

/-- The scope in which a tuple lies in a domain; the tuple must lie inside. -/
def enterOrFail (name : String) (d : Option Domain) (key : Tuple) : Eval Scope := do
  match ← enter eval d key with
  | some scope => pure scope
  | none => fail s!"{name ++ tupleText key} out of domain"

/-! ### Sets -/

/-- The members lie within the declared sets. -/
def checkMembers (d : SetDeclaration) (scope : Scope) (ts : List Tuple) : Eval Unit := do
  for s in d.within do
    for t in ts do
      unless ← isMember eval scope t s do fail s!"{d.name} contains a member outside of its set"

/-- The data for a set are checked once. -/
def checkSetData (d : SetDeclaration) : Eval Unit := do
  unless ← markChecked d.name do
    for (key, ts) in ((← get).tables.sets.lookup d.name).getD [] do
      checkMembers eval d (← enterOrFail eval d.name d.domain key) ts

/-- The members of a declared set. -/
def declaredSet (name : String) (key : Tuple) : Eval (List Tuple) := do
  let d ← findSet name
  checkSetData eval d
  let scope ← enterOrFail eval name d.domain key
  let m ← get
  match (m.tables.members? name key).orElse fun _ => (m.sets.lookup name).bind (·.lookup key) with
  | some ts => pure ts
  | none => do
    let ts ← match d.assigned.orElse fun _ => d.default with
      | some e => setOf eval scope e
      | none => fail s!"no value for {name ++ tupleText key}"
    checkMembers eval d scope ts
    rememberSet name key ts
    pure ts

/-! ### Parameters -/

/-- The value is of the declared kind. -/
def checkKind (d : ParameterDeclaration) (value : Symbol) : Eval Unit := do
  match d.kind, value with
  | .integer, .number x => unless x == x.floor do fail s!"{d.name} not integer"
  | .binary, .number x => unless x == 0.0 || x == 1.0 do fail s!"{d.name} not binary"
  | _, _ => pure ()

/-- The value is what is declared of a parameter. -/
def checkValue (d : ParameterDeclaration) (scope : Scope) (value : Symbol) : Eval Unit := do
  checkKind d value
  for (r, e) in d.relations do
    let bound ← symbolOf eval scope e
    let bound ← if d.kind = .symbol then pure bound else Symbol.number <$> of bound.toNumber
    unless r.holds value bound do fail s!"{d.name} violates a relation"
  for s in d.sets do
    unless ← isMember eval scope [value] s do fail s!"{d.name} not in its set"

/-- The data for a parameter are checked once. -/
def checkParameterData (d : ParameterDeclaration) : Eval Unit := do
  unless ← markChecked d.name do
    for (key, value) in ((← get).tables.parameter d.name).values do
      checkValue eval d (← enterOrFail eval d.name d.domain key) value

/-- A value that is not among the data. -/
def defined (d : ParameterDeclaration) (scope : Scope) (key : Tuple) : Eval Symbol := do
  match d.assigned.orElse fun _ => d.default with
  | some e => symbolOf eval scope e
  | none =>
    match ((← get).tables.parameter d.name).default, d.kind with
    | some s, .symbol => pure s
    | some (.number x), _ => pure (.number x)
    | some (.text s), _ => fail s!"cannot convert {s} to a number"
    | none, _ => fail s!"no value for {d.name ++ tupleText key}"

/-- The value of a parameter. -/
def parameterValue (name : String) (key : Tuple) : Eval Symbol := do
  let d ← findParameter name
  checkParameterData eval d
  let scope ← enterOrFail eval name d.domain key
  let m ← get
  let known := ((m.tables.parameter name).values.lookup key).orElse fun _ =>
    (m.parameters.lookup name).bind (·.lookup key)
  match known with
  | some s => pure s
  | none => do
    let s ← defined eval d scope key
    let s ← if d.kind = .symbol then pure s else Symbol.number <$> of s.toNumber
    checkValue eval d scope s
    rememberParameter name key s
    pure s

/-! ### Elements -/

/-- The limits of an element. -/
def limitsOf (scope : Scope) : Limits → Eval (Option Float × Option Float)
  | .between lower upper => do
    let l ← lower.mapM (numberOf eval scope)
    let u ← upper.mapM (numberOf eval scope)
    pure (l, u)
  | .exactly e => do
    let x ← numberOf eval scope e
    pure (some x, some x)

/-- The number of an element, which is new unless it was met before. -/
def element (name : String) (key : Tuple) : Eval Nat := do
  let d ← findUnknown name
  let scope ← enterOrFail eval name d.domain key
  match (← get).elements.findIdx? fun e => e.name == name && e.subscripts == key with
  | some k => pure k
  | none => do
    let (lower, upper) ← limitsOf eval scope d.limits
    let k := (← get).elements.size
    modify fun m => { m with elements := m.elements.push ⟨name, key, lower, upper⟩ }
    pure k

/-! ### Expressions -/

/-- The symbols of expressions. -/
def keyOf (scope : Scope) (es : List Expr) : Eval Tuple := es.mapM (symbolOf eval scope)

/-- Two values joined over a domain. -/
def foldStep (f : Fold) (v w : Value) : Checked Value := do
  match f with
  | .sum => v.combine .add w
  | .product => v.combine .mul w
  | .least => return if (← w.toNumber) < (← v.toNumber) then w else v
  | .greatest => return if (← v.toNumber) < (← w.toNumber) then w else v

/-- The value over no points at all. -/
def foldUnit : Fold → Float
  | .sum => 0.0
  | .product => 1.0
  | .least => MathProg.greatest
  | .greatest => -MathProg.greatest

/-- Some scope makes the condition have the value. -/
def finds (value : Bool) (e : Expr) : List (Scope × Tuple) → Eval Bool
  | [] => pure false
  | (scope, _) :: rest => do
    if (← truthOf eval scope e) == value then pure true else finds value e rest

/-- Two operands, the right one evaluated first. -/
def operands (scope : Scope) (x y : Expr) : Eval (Value × Value) := do
  let w ← eval scope y
  let v ← eval scope x
  pure (v, w)

/-- The value of an expression, given an evaluator for the parts. -/
def step (scope : Scope) : Expr → Eval Value
  | .symbol s => pure (.symbol s)
  | .component name =>
    match scope.lookup name with
    | some s => pure (.symbol s)
    | none => fail s!"{name} not defined"
  | .parameter name es => do
    return .symbol (← parameterValue eval name (← keyOf eval scope es))
  | .unknown name es => do
    return .linear { terms := [(← element eval name (← keyOf eval scope es), 1.0)] }
  | .declared name es => do return .set (← declaredSet eval name (← keyOf eval scope es))
  | .tuple es => return .tuple (← keyOf eval scope es)
  | .negate x => do of (← eval scope x).negate
  | .combine operation x y => do
    let (v, w) ← operands eval scope x y
    of (v.combine operation w)
  | .join x y => do
    let (v, w) ← operands eval scope x y
    of (v.join w)
  | .apply f es => do
    let xs ← es.mapM (numberOf eval scope)
    return .number (← of (f.value xs))
  | .size s => return .number (← setOf eval scope s).length.toFloat
  | .fold f d x => do
    (← points eval scope d).foldlM
      (fun v (scope, _) => do of (foldStep f v (← eval scope x))) (.number (foldUnit f))
  | .choose c x y => do
    if ← truthOf eval scope c then eval scope x
    else
      match y with
      | some y => eval scope y
      | none => pure (.number 0.0)
  | .relate r x y => do
    let (v, w) ← operands eval scope x y
    return .truth (r.holds (← of v.toSymbol) (← of w.toSymbol))
  | .isIn x s => return .truth (← isMember eval scope (← tupleOf eval scope x) s)
  | .isWithin s t => do
    let ts ← setOf eval scope s
    return .truth (← ts.allM fun x => isMember eval scope x t)
  | .not x => return .truth (!(← truthOf eval scope x))
  | .and x y => do
    if ← truthOf eval scope x then return .truth (← truthOf eval scope y) else pure (.truth false)
  | .or x y => do
    if ← truthOf eval scope x then pure (.truth true) else return .truth (← truthOf eval scope y)
  | .all d x => do return .truth (!(← finds eval false x (← points eval scope d)))
  | .any d x => do return .truth (← finds eval true x (← points eval scope d))
  | .members es => return .set (← of (distinct (← es.mapM (tupleOf eval scope))))
  | .range first last s => do
    return .set (← of (← progression eval scope first last s).members)
  | .build d => return .set ((← points eval scope d).map Prod.snd)
  | .image d x => do
    let ts ← (← points eval scope d).mapM fun (scope, _) => tupleOf eval scope x
    return .set (onceEach ts)
  | .merge operation s t => do
    let a ← setOf eval scope s
    let b ← setOf eval scope t
    return .set (operation.value a b)

end

/-- Expressions evaluated to a depth. -/
def evaluateTo : Nat → Evaluator
  | 0 => fun _ _ => fail "expression too deep"
  | n + 1 => step (evaluateTo n)

/-- The depth to which expressions are evaluated. -/
def depth : Nat := 4000

/-- The value of an expression. -/
def evaluate : Evaluator := evaluateTo depth

end Evaluation

end Optimization.MathProg
