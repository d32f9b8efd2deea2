import Optimization.Value.Number

/-!
# Scalars

A scalar is nothing, a number or a text: what the fields of a model may be set to.

* `toFloat` and `toInteger` read a scalar as a number, texts by the grammar of numerals;
* `toText` is the plain text of a scalar, `quoted` the text by which messages show it;
* `isTrue` is false for nothing, zero and the empty text.
-/

namespace Optimization

/-- Nothing, a number or a text. -/
inductive Scalar
  | nothing
  | number (x : Number)
  | text (s : String)

namespace Scalar

/-- A truth value as a scalar. -/
@[match_pattern] def truth (b : Bool) : Scalar := number (.truth b)

/-- An integer as a scalar. -/
@[match_pattern] def integer (n : Int) : Scalar := number (.integer n)

/-- A float as a scalar. -/
@[match_pattern] def real (x : Float) : Scalar := number (.real x)

/-- The kind of a scalar. -/
def kind : Scalar → Kind
  | nothing => .nothing
  | number x => x.kind
  | text _ => .text

/-- The plain text of a scalar. -/
def toText : Scalar → String
  | nothing => "None"
  | number x => x.toText
  | text s => s

/-- The text of a scalar in messages, where texts are quoted. -/
def quoted : Scalar → String
  | text s => Text.quoted s
  | x => x.toText

/-- Nothing, zero and the empty text are false. -/
def isTrue : Scalar → Bool
  | nothing => false
  | number x => x.isTrue
  | text s => !s.isEmpty

/-- Numbers are equal by value, texts by their characters, other pairs never unless both are
nothing. -/
def same : Scalar → Scalar → Bool
  | nothing, nothing => true
  | number x, number y => x.same y
  | text s, text t => s == t
  | _, _ => false

/-- A scalar as a float. -/
def toFloat : Scalar → Except Fault Float
  | nothing => throw (.notANumber .nothing)
  | number x => x.toFloat
  | text s =>
    match Decimal.readFloat? s with
    | some x => pure x
    | none => throw (.notAFloat s)

/-- A scalar as an integer. -/
def toInteger : Scalar → Except Fault Int
  | nothing => throw (.noIntegerOf .nothing)
  | number x => x.toInteger
  | text s =>
    match Decimal.readInteger? s with
    | some n => pure n
    | none =>
      if (Decimal.unlimitedInteger? s).isSome then throw (.tooManyDigits (Decimal.digitCount s))
      else throw (.notAnInteger s)

/-- The text of a name: nothing stays nothing. -/
def name? : Scalar → Option String
  | nothing => none
  | x => some x.toText

end Scalar

/-- How messages show an optional name. -/
def quotedName : Option String → String
  | some s => Text.quoted s
  | none => "None"

/-- The plain text of an optional name. -/
def plainName : Option String → String
  | some s => s
  | none => "None"

end Optimization
