import Optimization.FixedWidth

/-!
# Parameters

The parameters of a solver are eleven settings, each any scalar. They are read as the control
numbers of an engine only when a run starts.

* Truth values of an engine are 1 and 0, by the truth of the scalar.
* A number for an engine must be an integer of 32 bits.
* A time limit is in seconds and becomes milliseconds, at least zero, their fraction dropped.
-/

namespace Optimization

/-- The settings. -/
inductive Setting
  | messageLevel
  | timeLimit
  | iterationLimit
  | presolve
  | branching
  | backtracking
  | preprocessing
  | mirCuts
  | gomoryCuts
  | coverCuts
  | cliqueCuts
  deriving DecidableEq, Repr

namespace Setting

/-- All settings. -/
def all : List Setting :=
  [messageLevel, timeLimit, iterationLimit, presolve, branching, backtracking, preprocessing,
    mirCuts, gomoryCuts, coverCuts, cliqueCuts]

/-- The key of a setting. -/
def key : Setting → String
  | messageLevel => "msg_lev"
  | timeLimit => "time_limit"
  | iterationLimit => "it_lim"
  | presolve => "presolve"
  | branching => "br_tech"
  | backtracking => "bt_tech"
  | preprocessing => "pp_tech"
  | mirCuts => "mir_cuts"
  | gomoryCuts => "gmi_cuts"
  | coverCuts => "cov_cuts"
  | cliqueCuts => "clq_cuts"

/-- The setting of a key. -/
def ofKey? (s : String) : Option Setting := all.find? (·.key == s)

/-- The value of a setting that is not given. -/
def initial : Setting → Scalar
  | messageLevel => .integer 1
  | branching => .integer 4
  | backtracking => .integer 3
  | preprocessing => .integer 2
  | timeLimit | iterationLimit => .nothing
  | presolve | mirCuts | gomoryCuts | coverCuts | cliqueCuts => .truth false

end Setting

/-- The operations of a set of parameters, which an entry of the same name displaces. -/
inductive ParameterUse
  | listing
  | simplexControl
  | searchControl
  | timeControl
  deriving DecidableEq, Repr

namespace ParameterUse

/-- All operations. -/
def all : List ParameterUse := [listing, simplexControl, searchControl, timeControl]

/-- The key of an operation. -/
def key : ParameterUse → String
  | listing => "to_dict"
  | simplexControl => "to_smcp"
  | searchControl => "to_iocp"
  | timeControl => "_tm_lim"

/-- The operation of a key. -/
def ofKey? (s : String) : Option ParameterUse := all.find? (·.key == s)

end ParameterUse

/-- A scalar for each setting, and the scalars that displaced operations. -/
structure Parameters where
  values : Setting → Scalar := Setting.initial
  displaced : ParameterUse → Option Scalar := fun _ => none

instance : Inhabited Parameters := ⟨{}⟩

/-- The control numbers of a simplex run. -/
structure SimplexControl where
  messageLevel : Int := 1
  presolve : Bool := false
  timeLimit : Int := 2147483647
  iterationLimit : Int := 2147483647

/-- The control numbers of a search run. -/
structure SearchControl where
  messageLevel : Int := 1
  branching : Int := 4
  backtracking : Int := 3
  preprocessing : Int := 2
  mirCuts : Bool := false
  gomoryCuts : Bool := false
  coverCuts : Bool := false
  cliqueCuts : Bool := false
  presolve : Bool := false
  timeLimit : Int := 2147483647

/-- A scalar handed to an engine as a 32-bit integer. -/
def Scalar.toEngineInteger : Scalar → Except Fault Int
  | .number x =>
    match x.whole? with
    | some n => if CellType.int32.fits n then pure n else throw .tooLarge
    | none => throw .fieldKind
  | _ => throw .fieldKind

namespace Parameters

/-- Set a setting. -/
def set (p : Parameters) (s : Setting) (x : Scalar) : Parameters :=
  { p with values := fun t => if t = s then x else p.values t }

/-- Displace an operation. -/
def displace (p : Parameters) (u : ParameterUse) (x : Scalar) : Parameters :=
  { p with displaced := fun t => if t = u then some x else p.displaced t }

/-- Give the entry of a key a value. A few keys belong to the parameters themselves and take no
scalar; a key without meaning has no effect. -/
def assign (p : Parameters) (key : String) (x : Scalar) : Except Fault Parameters :=
  match Setting.ofKey? key, ParameterUse.ofKey? key with
  | some s, _ => pure (p.set s x)
  | none, some u => pure (p.displace u x)
  | none, none =>
    if key == "__class__" then throw (.notAClass x.kind)
    else if key == "__dict__" then throw (.notADictionary x.kind)
    else if key == "__weakref__" then throw .noProperty
    else pure p

/-- Give several entries values, one after the other. -/
def assignAll (p : Parameters) (entries : List (String × Scalar)) : Except Fault Parameters :=
  entries.foldlM (fun p (key, x) => p.assign key x) p

/-- Parameters from entries. -/
def ofEntries (entries : List (String × Scalar)) : Except Fault Parameters :=
  assignAll {} entries

/-- An operation that was displaced is refused. -/
def require (p : Parameters) (u : ParameterUse) : Except Fault Unit :=
  match p.displaced u with
  | some x => throw (.notCallable x.kind)
  | none => pure ()

/-- All settings by key. -/
def toEntries (p : Parameters) : Except Fault (List (String × Scalar)) := do
  p.require .listing
  pure (Setting.all.map fun s => (s.key, p.values s))

/-- A thousand times a scalar; a text is repeated. -/
def thousandfold : Scalar → Except Fault Scalar
  | .nothing => throw (.undefinedOperator .mul .nothing .integer)
  | .number x => do pure (.number (← x.mul (.integer 1000)))
  | .text s => pure (.text ("".intercalate (List.replicate 1000 s)))

/-- The time limit in milliseconds, if there is one. -/
def milliseconds? (p : Parameters) : Except Fault (Option Int) := do
  p.require .timeControl
  match p.values .timeLimit with
  | .nothing => pure none
  | x => pure (some (max 0 (← (← thousandfold x).toInteger)))

/-- The greatest number that an engine's limits can hold; it stands for no limit. -/
def noLimit : Int := 2147483647

/-- The time limit as an engine takes it. -/
def timeControl (p : Parameters) : Except Fault Int := do
  match ← p.milliseconds? with
  | some n => (Scalar.integer n).toEngineInteger
  | none => pure noLimit

/-- The iteration limit as an engine takes it. -/
def iterationControl (p : Parameters) : Except Fault Int := do
  match p.values .iterationLimit with
  | .nothing => pure noLimit
  | x => (Scalar.integer (← x.toInteger)).toEngineInteger

/-- The control numbers of a simplex run. -/
def simplexControl (p : Parameters) : Except Fault SimplexControl := do
  p.require .simplexControl
  let messageLevel ← (p.values .messageLevel).toEngineInteger
  let timeLimit ← p.timeControl
  let iterationLimit ← p.iterationControl
  pure ⟨messageLevel, (p.values .presolve).isTrue, timeLimit, iterationLimit⟩

/-- The control numbers of a search run, which starts from a relaxation that is already solved and
so never presolves. -/
def searchControl (p : Parameters) : Except Fault SearchControl := do
  p.require .searchControl
  let messageLevel ← (p.values .messageLevel).toEngineInteger
  let branching ← (p.values .branching).toEngineInteger
  let backtracking ← (p.values .backtracking).toEngineInteger
  let preprocessing ← (p.values .preprocessing).toEngineInteger
  let timeLimit ← p.timeControl
  pure {
    messageLevel, branching, backtracking, preprocessing, timeLimit
    mirCuts := (p.values .mirCuts).isTrue
    gomoryCuts := (p.values .gomoryCuts).isTrue
    coverCuts := (p.values .coverCuts).isTrue
    cliqueCuts := (p.values .cliqueCuts).isTrue }

/-- The text of parameters. -/
def toText (p : Parameters) : String :=
  s!"Parameters(msg_lev={(p.values .messageLevel).toText}, "
    ++ s!"time_limit={(p.values .timeLimit).toText}, "
    ++ s!"presolve={(p.values .presolve).toText})"

@[simp] theorem values_set (p : Parameters) (s t : Setting) (x : Scalar) :
    (p.set s x).values t = if t = s then x else p.values t := rfl

@[simp] theorem values_displace (p : Parameters) (u : ParameterUse) (x : Scalar) :
    (p.displace u x).values = p.values := rfl

end Parameters

end Optimization
