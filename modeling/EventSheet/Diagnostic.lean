import EventSheet.Span
import EventSheet.ValueType

/-!
What can be wrong with an expression, and how it is told.

A `Problem` is a cause, with what it needs for its wording. A `Diagnostic` is a problem in words at
a place: a code, a message, a span and suggestions. The checker finds problems; only diagnostics
are written down, so a report can also show diagnostics that come from elsewhere.
-/

set_option autoImplicit false

namespace EventSheet

/-! ## Codes -/

/-- How a return type misses the expected one. -/
inductive Mismatch where
  /-- A number stands where a text is expected. -/
  | numberWhereStringExpected
  /-- A text stands where a number is expected. -/
  | stringWhereNumberExpected
  /-- Any other two types. -/
  | generic
deriving DecidableEq, Repr, Inhabited

namespace Mismatch

/-- The name of a mismatch. -/
def name : Mismatch → String
  | .numberWhereStringExpected => "number_where_string_expected"
  | .stringWhereNumberExpected => "string_where_number_expected"
  | .generic => "generic"

/-- The mismatch of a name. -/
def ofName? (s : String) : Option Mismatch :=
  [numberWhereStringExpected, stringWhereNumberExpected, generic].find? fun m => m.name = s

end Mismatch

/-- The sort of a diagnostic. -/
inductive Code where
  | unknownFunction
  | unsupportedCapability
  | returnTypeMismatch (mismatch : Mismatch)
  | tooFewArguments
  | tooManyArguments
  | missingArgument
  | malformedObjectParameter
  | unknownParameterType
  | nestingTooDeep
deriving DecidableEq, Repr, Inhabited

namespace Code

/-- The short form of a code that reports show. -/
def short : Code → String
  | .unknownFunction => "E010"
  | .unsupportedCapability => "E011"
  | .returnTypeMismatch .numberWhereStringExpected => "E020"
  | .returnTypeMismatch .stringWhereNumberExpected => "E021"
  | .returnTypeMismatch .generic => "E022"
  | .tooFewArguments => "E030"
  | .tooManyArguments => "E031"
  | .missingArgument => "E032"
  | .malformedObjectParameter => "E040"
  | .unknownParameterType => "E041"
  | .nestingTooDeep => "E050"

/-- The group that editors show a code in. -/
def group : Code → String
  | .unknownFunction => "invalid_function_name"
  | .unsupportedCapability => "type_error"
  | .returnTypeMismatch _ => "type_error"
  | .tooFewArguments => "too_few_parameters"
  | .tooManyArguments => "extra_parameter"
  | .missingArgument => "missing_parameter"
  | .malformedObjectParameter => "malformed_object_parameter"
  | .unknownParameterType => "unknown_parameter_type"
  | .nestingTooDeep => "nesting_too_deep"

/-- Whether a code tells of a return type. -/
def isTypeMismatch : Code → Bool
  | .returnTypeMismatch _ => true
  | _ => false

/-- The name of a code; a mismatch has its own name beside it. -/
def name : Code → String
  | .unknownFunction => "unknown_function"
  | .unsupportedCapability => "unsupported_capability"
  | .returnTypeMismatch _ => "return_type_mismatch"
  | .tooFewArguments => "too_few_arguments"
  | .tooManyArguments => "too_many_arguments"
  | .missingArgument => "missing_argument"
  | .malformedObjectParameter => "malformed_object_parameter"
  | .unknownParameterType => "unknown_parameter_type"
  | .nestingTooDeep => "nesting_too_deep"

/-- The codes that carry nothing beside their name. -/
def plain : List Code :=
  [.unknownFunction, .unsupportedCapability, .tooFewArguments, .tooManyArguments,
    .missingArgument, .malformedObjectParameter, .unknownParameterType, .nestingTooDeep]

/-- The code of a name that needs nothing beside it. -/
def ofName? (s : String) : Option Code := plain.find? fun c => c.name = s

end Code

/-! ## Diagnostics -/

/-- A text that could stand in place of what was written. -/
structure Suggestion where
  /-- What the suggestion is. -/
  message : String
  /-- The text to write. -/
  replacement : String
  /-- How likely the text is meant, up to one. -/
  confidence : Float32
deriving DecidableEq, Inhabited

/-- A problem in words, at a place. -/
structure Diagnostic where
  /-- Its sort. -/
  code : Code
  /-- Its wording; lines after the first are notes. -/
  message : String
  /-- Its place. -/
  span : Span
  /-- What could be written instead. -/
  suggestions : List Suggestion
deriving DecidableEq, Inhabited

/-! ## Problems -/

/-- What is wrong with an expression. -/
inductive Problem where
  /-- No function of that name is known; some that are have names like it. -/
  | unknownFunction (name : String) (suggestions : List Suggestion)
  /-- The object is not capable of what the function needs. -/
  | unsupportedCapability (capability : String)
  /-- The value is of another type than the place expects. -/
  | returnTypeMismatch (mismatch : Mismatch) (declared expected : ValueType)
  /-- Arguments are missing at the end. -/
  | tooFewArguments (min max : Nat)
  /-- Arguments are left over. -/
  | tooManyArguments (min max : Nat)
  /-- An argument that must be given is left out. -/
  | missingArgument (expected : ValueType)
  /-- An object is meant, and something else is written. -/
  | malformedObjectParameter
  /-- The catalog declares the parameter with a tag of no category. -/
  | unknownParameterType (tag : String)
  /-- The expression nests deeper than is looked at. -/
  | nestingTooDeep
deriving DecidableEq, Inhabited

/-- The deepest level of nesting that is looked at. -/
def maxDepth : Nat := 64

/-- The wording of how many arguments a call takes. -/
def expectedCountMessage (min max : Nat) : String :=
  if min = max then s!"The number of parameters must be exactly {min}"
  else s!"The number of parameters must be: {min}-{max}"

namespace Problem

/-- The sort of a problem. -/
def code : Problem → Code
  | .unknownFunction _ _ => .unknownFunction
  | .unsupportedCapability _ => .unsupportedCapability
  | .returnTypeMismatch mismatch _ _ => .returnTypeMismatch mismatch
  | .tooFewArguments _ _ => .tooFewArguments
  | .tooManyArguments _ _ => .tooManyArguments
  | .missingArgument _ => .missingArgument
  | .malformedObjectParameter => .malformedObjectParameter
  | .unknownParameterType _ => .unknownParameterType
  | .nestingTooDeep => .nestingTooDeep

/-- The wording of a return type that does not fit. -/
def mismatchMessage (mismatch : Mismatch) (declared expected : ValueType) : String :=
  match mismatch with
  | .numberWhereStringExpected =>
    "You tried to use an expression that returns a number, but a string is expected. "
      ++ "Use `ToString` if you need to convert a number to a string."
  | .stringWhereNumberExpected =>
    "You tried to use an expression that returns a string, but a number is expected. "
      ++ "Use `ToNumber` if you need to convert a string to a number."
  | .generic =>
    if declared = .number || declared = .string then
      s!"You tried to use an expression that returns a {declared}, but another type is expected: "
        ++ s!"{expected}"
    else
      s!"You tried to use an expression with the wrong return type: {declared} "
        ++ s!"(expected: {expected})"

/-- The wording of an argument that is left out. -/
def missingArgumentMessage : ValueType → String
  | .number => "You must enter a number or a valid expression call."
  | .string => "You must enter a text (between quotes) or a valid expression call."
  | .numberOrString => "You must enter a number, a text or a valid expression call."
  | .variable => "You must enter a variable name."
  | .object => "You must enter a valid object name."
  | _ => "You must enter a valid expression."

/-- The wording of a problem. -/
def message : Problem → String
  | .unknownFunction name _ =>
    s!"Cannot find an expression with this name: {name}\n"
      ++ "Double check that you've not made any typo in the name."
  | .unsupportedCapability capability =>
    "This expression exists, but it can't be used on this object "
      ++ s!"(missing capability '{capability}')."
  | .returnTypeMismatch mismatch declared expected => mismatchMessage mismatch declared expected
  | .tooFewArguments min max =>
    "You have not entered enough parameters for the expression.\n"
      ++ expectedCountMessage min max
  | .tooManyArguments min max =>
    "This parameter was not expected by this expression. "
      ++ "Remove it or verify that you've entered the proper expression name.\n"
      ++ expectedCountMessage min max
  | .missingArgument expected => missingArgumentMessage expected
  | .malformedObjectParameter =>
    "An object name was expected. "
      ++ "Enter the name of an object without quotes or operators."
  | .unknownParameterType tag => s!"This parameter has a type that can't be checked: {tag}"
  | .nestingTooDeep =>
    s!"This expression is nested too deeply (more than {maxDepth} levels)."

/-- The suggestion to convert a value. -/
def conversion (function : String) : Suggestion := ⟨"convert with", function, 0.9⟩

/-- What could be written instead. -/
def suggestions : Problem → List Suggestion
  | .unknownFunction _ suggestions => suggestions
  | .returnTypeMismatch .numberWhereStringExpected _ _ => [conversion "ToString"]
  | .returnTypeMismatch .stringWhereNumberExpected _ _ => [conversion "ToNumber"]
  | _ => []

/-- The diagnostic of a problem at a place. -/
def «at» (p : Problem) (span : Span) : Diagnostic := ⟨p.code, p.message, span, p.suggestions⟩

end Problem

end EventSheet
