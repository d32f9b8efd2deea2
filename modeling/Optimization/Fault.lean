import Optimization.Decimal.Format
import Optimization.Text.Quoted
import Optimization.Value.Kind

/-!
# Why an operation is refused

A refusal is a cause with the data it is about. Its wording is given by one function, `message`,
and its category by another one.
-/

namespace Optimization
open Decimal (plain)
open Text (quoted)

/-- The coarse sort of a refusal. -/
inductive Category
  /-- An argument of the right kind with an unusable value. -/
  | value
  /-- An argument of the wrong kind. -/
  | kind
  /-- A missing key. -/
  | key
  /-- A position outside a list. -/
  | index
  /-- A division by zero. -/
  | division
  /-- A number too large for its place. -/
  | overflow
  /-- An operation at the wrong time. -/
  | state
  /-- An operation that is not offered. -/
  | unsupported
  /-- A missing property. -/
  | property
  /-- A missing file, or a path that leads to none. -/
  | missingFile
  /-- A directory in place of a file. -/
  | directory
  /-- A write to a record that cannot change. -/
  | frozen
  /-- A name that stands for nothing. -/
  | unbound
  deriving DecidableEq, Repr

/-- The cause of a refusal. -/
inductive Fault
  -- numbers and texts
  | notAFloat (text : String)
  | notANumber (kind : Kind)
  | nanToInteger
  | infinityToInteger
  | notAnInteger (text : String)
  | tooManyDigits (count : Nat)
  | noIntegerOf (kind : Kind)
  | tooLarge
  | floatDivision
  | integerDivision
  | zeroToNegativePower
  | complexPower
  | noFormat (code : String) (kind : Kind)
  | noTextFormat (code : String)
  -- operators
  | undefinedOperator (op : Operator) (left right : Kind)
  | undefinedOrder (relation : Relation) (left right : Kind)
  | undefinedNegation (kind : Kind)
  | undefinedMagnitude (kind : Kind)
  | concatenation (right : Kind)
  | repetition (right : Kind)
  | unhashable (kind : Kind)
  -- modelling
  | emptyName
  | invertedBounds (lower upper : Float) (name : String)
  | invertedRange (lower upper : Float)
  | notAMember (value enumeration : String)
  | notAPower
  | notAScalarFactor
  | notAScalarDivisor (ofVariable : Bool)
  | notAnExpression
  | unknownSense (sense : String)
  | duplicateName (name : String)
  | notAConstraint
  | missingKey (key : String)
  | noProperty
  -- translation
  | severalObjectives
  | nonlinearObjective (term : String)
  | nonlinearConstraint (term name : String)
  | unmapped (name : String)
  | variableMapped (name : String)
  | constraintMapped (name : String)
  | columnBelowOne (index : Int)
  | rowBelowOne (index : Int)
  | outsideList
  | notOneBased (row column : String)
  | outsideShape
  | nanBounds (lower upper : Float)
  | infiniteLower
  | infiniteUpper
  | nameTooLong (name : String)
  -- problems and solving
  | freed
  | unequalLengths
  | fieldKind
  | notCallable (kind : Kind)
  | notAClass (kind : Kind)
  | notADictionary (kind : Kind)
  | noModel
  | busy
  | abortRunning
  | parametersFixed
  -- solutions
  | readOnlyMapping
  | readOnlyRecord
  -- environment
  | unsupportedEngine (version : String)
  | unknownLevel (level : String)
  | noModelFile (path : String)
  | noDataFile (path : String)
  | noSourceFile (path : String)
  | emptyOutputName
  | notTranslatable (output : String)
  | nameClash (names : List String)
  | noSuchFile (path : String)
  | isDirectory (path : String)
  | notDirectory (path : String)
  | tooManyLinks (path : String)
  | arrayValue
  | arrayKind
  -- outside the library
  | sinkFailed (text : String)
  | interrupted (text : String)
  | unboundName (name : String)
  deriving Repr

namespace Fault

/-- The sort of a refusal. -/
def category : Fault → Category
  | notAFloat _ | nanToInteger | notAnInteger _ | tooManyDigits _ | noTextFormat _ => .value
  | notANumber _ | noIntegerOf _ | noFormat _ _ => .kind
  | infinityToInteger | tooLarge => .overflow
  | floatDivision | integerDivision | zeroToNegativePower => .division
  | complexPower => .unsupported
  | undefinedOperator .. | undefinedOrder .. | undefinedNegation _ | undefinedMagnitude _
  | concatenation _ | repetition _ | unhashable _ => .kind
  | emptyName | invertedBounds .. | invertedRange .. | notAMember .. | unknownSense _
  | duplicateName _ => .value
  | notAPower | notAScalarFactor | notAScalarDivisor _ | notAnExpression | notAConstraint => .kind
  | missingKey _ => .key
  | noProperty => .property
  | severalObjectives | nonlinearObjective _ | nonlinearConstraint .. | unmapped _
  | variableMapped _ | constraintMapped _ | notOneBased .. | outsideShape | nanBounds ..
  | infiniteLower | infiniteUpper | nameTooLong _ => .value
  | columnBelowOne _ | rowBelowOne _ | outsideList => .index
  | freed => .state
  | unequalLengths => .value
  | fieldKind | notCallable _ | notAClass _ | notADictionary _ => .kind
  | noModel => .value
  | busy => .state
  | abortRunning | parametersFixed => .unsupported
  | readOnlyMapping => .kind
  | readOnlyRecord => .frozen
  | unsupportedEngine _ => .state
  | unknownLevel _ => .value
  | noModelFile _ | noDataFile _ | noSourceFile _ | noSuchFile _ | notDirectory _
  | tooManyLinks _ => .missingFile
  | emptyOutputName => .value
  | notTranslatable _ => .state
  | nameClash _ => .value
  | isDirectory _ => .directory
  | arrayValue => .value
  | arrayKind => .kind
  | sinkFailed _ => .value
  | interrupted _ => .state
  | unboundName _ => .unbound

/-- The wording of a refusal; some refusals have none. -/
def message? : Fault → Option String
  | notAFloat text => s!"could not convert string to float: {quoted text}"
  | notANumber kind => s!"float() argument must be a string or a real number, not '{kind.name}'"
  | nanToInteger => "cannot convert float NaN to integer"
  | notAnInteger text =>
    s!"invalid literal for int() with base 10: {(quoted text).take 200}"
  | tooManyDigits count =>
    s!"Exceeds the limit (4300 digits) for integer string conversion: value has {count} digits; "
      ++ "use sys.set_int_max_str_digits() to increase the limit"
  | noIntegerOf kind =>
    "int() argument must be a string, a bytes-like object or a real number, not "
      ++ s!"'{kind.name}'"
  | floatDivision => "float division by zero"
  | integerDivision => "division by zero"
  | zeroToNegativePower => "0.0 cannot be raised to a negative power"
  | noFormat _ kind => s!"unsupported format string passed to {kind.name}.__format__"
  | noTextFormat code => s!"Unknown format code '{code}' for object of type 'str'"
  | undefinedOperator op left right =>
    s!"unsupported operand type(s) for {op.symbol}: '{left.name}' and '{right.name}'"
  | undefinedOrder relation left right =>
    s!"'{relation.symbol}' not supported between instances of '{left.name}' and '{right.name}'"
  | undefinedNegation kind => s!"bad operand type for unary -: '{kind.name}'"
  | undefinedMagnitude kind => s!"bad operand type for abs(): '{kind.name}'"
  | concatenation right => s!"can only concatenate str (not \"{right.name}\") to str"
  | repetition right => s!"can't multiply sequence by non-int of type '{right.name}'"
  | unhashable kind => s!"unhashable type: '{kind.name}'"
  | emptyName => "Variable name must be a non-empty string"
  | invertedBounds lower upper name =>
    s!"Lower bound ({plain lower}) must be <= upper bound ({plain upper}) "
      ++ s!"for variable {quoted name}"
  | invertedRange lower upper =>
    s!"Lower bound ({plain lower}) must be <= upper bound ({plain upper})"
  | notAMember value enumeration => s!"{value} is not a valid {enumeration}"
  | notAPower => "Variables can only be raised to a positive integer power"
  | notAScalarFactor => "Can only multiply expression by scalar (no products of variables)"
  | notAScalarDivisor true => "Can only divide variable by scalar"
  | notAScalarDivisor false => "Can only divide expression by scalar"
  | notAnExpression => "Expected a Variable, scalar, or Expression"
  | unknownSense sense => s!"Unknown constraint sense: {sense}"
  | duplicateName name => s!"Model already contains a variable named {quoted name}"
  | notAConstraint => "Must provide a Constraint object (use <=, >=, == or between())"
  | missingKey key => key
  | severalObjectives => "Only one objective supported"
  | nonlinearObjective term => s!"Only linear terms in objective allowed: {term}"
  | nonlinearConstraint term name => s!"Only linear terms in constraints allowed: {term} in {name}"
  | unmapped name =>
    s!"Variable {quoted name} is referenced by an expression but is not part of the model"
  | variableMapped name => s!"Variable {quoted name} is already mapped"
  | constraintMapped name => s!"Constraint {name} is already mapped"
  | columnBelowOne index => s!"Column indices start at 1 (got {index})"
  | rowBelowOne index => s!"Row indices start at 1 (got {index})"
  | outsideList => "list index out of range"
  | notOneBased row column => s!"Matrix indices are 1-based (got row={row}, col={column})"
  | nanBounds lower upper => s!"Bounds must not be NaN (got [{plain lower}, {plain upper}])"
  | infiniteLower => "Lower bound must not be +inf"
  | infiniteUpper => "Upper bound must not be -inf"
  | nameTooLong name => s!"GLPK names are limited to 255 characters: {name.take 32}..."
  | freed => "Problem has been freed"
  | unequalLengths => "ia, ja and ar must have the same length"
  | notCallable kind => s!"'{kind.name}' object is not callable"
  | notAClass kind => s!"__class__ must be set to a class, not '{kind.name}' object"
  | notADictionary kind => s!"__dict__ must be set to a dictionary, not a '{kind.name}'"
  | noModel => "model must not be None"
  | busy => "solver is busy"
  | abortRunning => "Aborting a running solve is not supported"
  | parametersFixed => "Changing parameters of an existing solver is not supported"
  | readOnlyMapping => "'mappingproxy' object does not support item assignment"
  | readOnlyRecord => "cannot assign to field 'wall_time'"
  | unsupportedEngine version =>
    s!"GLPK {version} is not supported; optiglpk requires GLPK >= 4.52"
  | unknownLevel level => s!"Unknown level: {quoted level}"
  | noModelFile path => s!"MOD-File '{path}' does not exist."
  | noDataFile path => s!"DAT-File '{path}' does not exist."
  | noSourceFile path => s!"MathProg model file not found: {path}"
  | emptyOutputName => "Output file name may not be an empty string"
  | notTranslatable output => output
  | nameClash names => "Model already contains variables named " ++ ", ".intercalate names
  | noSuchFile path => s!"[Errno 2] No such file or directory: {quoted path}"
  | isDirectory path => s!"[Errno 21] Is a directory: {quoted path}"
  | notDirectory path => s!"[Errno 20] Not a directory: {quoted path}"
  | tooManyLinks path => s!"[Errno 40] Too many levels of symbolic links: {quoted path}"
  | sinkFailed text => text
  | interrupted text => text
  | unboundName name => s!"${name}"
  | infinityToInteger | tooLarge | complexPower | noProperty | outsideShape | fieldKind
  | arrayValue | arrayKind => none

end Fault

end Optimization
