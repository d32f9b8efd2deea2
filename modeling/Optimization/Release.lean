import Optimization.Fault
import Optimization.Decimal.Numeral

/-!
# Releases of an engine

An engine names its release by a text such as `5.0`. Only releases from 4.52 on are supported; the
first supported release that is seen is remembered, and later ones are not looked at.
-/

namespace Optimization.Release

/-- The least supported release. -/
def least : Int × Int := (4, 52)

/-- Major and minor number of a release; a missing minor number is zero. -/
def read? (text : String) : Option (Int × Int) :=
  match text.splitOn "." with
  | [] => none
  | [major] => do pure (← Decimal.readInteger? major, 0)
  | major :: minor :: _ => do pure (← Decimal.readInteger? major, ← Decimal.readInteger? minor)

/-- A release lies at or above another one. -/
def atLeast (a b : Int × Int) : Bool := decide (b.1 < a.1 ∨ b.1 = a.1 ∧ b.2 ≤ a.2)

/-- The release is supported. -/
def isSupported (text : String) : Bool := ((read? text).map (atLeast · least)).getD false

/-- The release that is in use when an engine of the given release is met. -/
def settle (known : Option String) (version : String) : Except Fault String :=
  match known with
  | some v => pure v
  | none => if isSupported version then pure version else throw (.unsupportedEngine version)

/-- The answers to several engines met one after the other. -/
def settleAll (known : Option String) : List String → List (Except Fault String)
  | [] => []
  | version :: rest =>
    match settle known version with
    | .ok v => .ok v :: settleAll (some v) rest
    | .error fault => .error fault :: settleAll known rest

end Optimization.Release
