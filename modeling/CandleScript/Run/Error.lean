import CandleScript.Builtin
import CandleScript.Diagnostic.Code
import CandleScript.Value

namespace CandleScript

namespace Limit

inductive Kind where
  | seriesLength
  | operations
  | executionTime
  deriving DecidableEq, Repr

def Kind.name : Kind → String
  | .seriesLength => "series length"
  | .operations => "operation count"
  | .executionTime => "execution time (ms)"

-- A limit and the greater value that was met.
structure Violation where
  kind : Kind
  limit : Nat
  observed : Nat
  deriving DecidableEq, Repr

def Violation.message (v : Violation) : String :=
  s!"{v.kind.name} limit exceeded: {v.observed} > {v.limit}"

end Limit

-- What can be wrong with the arguments of a call. Arguments are numbered from
-- zero here and from one in messages.
inductive ArgumentFault where
  | count (arity : String) (given : Nat)
  | notSeries (index : Nat)
  | notCondition (index : Nat)
  | notFinite (index : Nat) (type : ValueType)
  | notPeriod (value : Float)
  | notPercentage (index : Nat) (value : Float)
  | notText (index : Nat) (type : ValueType)
  | notNamedText (what : String) (type : ValueType)
  | notDirection (text : String)
  | notShown (type : ValueType)
  deriving DecidableEq

def ordinal (index : Nat) : String := s!"argument {index + 1}"

def ArgumentFault.message : ArgumentFault → String
  | count arity given => s!"expects {arity} argument(s), got {given}"
  | notSeries index => s!"{ordinal index} must be a number or series, got string"
  | notCondition index => s!"{ordinal index} must be a condition, got string"
  | notFinite index type => s!"{ordinal index} must be a finite number, got {type.name}"
  | notPeriod value => s!"period must be a positive integer, got {Number.messageText value}"
  | notPercentage index value =>
    s!"{ordinal index} must be a positive percentage, got {Number.messageText value}"
  | notText index type => s!"{ordinal index} must be a string, got {type.name}"
  | notNamedText what type => s!"{what} must be a string, got {type.name}"
  | notDirection text => s!"direction must be 'long' or 'short', got '{text}'"
  | notShown type => s!"first argument must be a series, got {type.name}"

-- Why a run ends early.
inductive RuntimeError where
  | undefinedVariable (name : String)
  | unknownFunction (name : String)
  | invalidArgument (function : Builtin) (fault : ArgumentFault)
  -- a function was about to use an argument that the call does not have
  | missingArgument (function : Builtin) (index : Nat)
  | divisionByZero
  | typeMismatch (op : Operator) (left right : ValueType)
  | invalidContext (name : String) (expected actual : Nat)
  | limitExceeded (violation : Limit.Violation)
  deriving DecidableEq

namespace RuntimeError

-- Whether the run was stopped from outside the program.
def isSandboxViolation : RuntimeError → Bool
  | limitExceeded _ => true
  | _ => false

def code : RuntimeError → Diagnostic.Code
  | undefinedVariable _ => .missingValue
  | unknownFunction _ => .internalError
  | invalidArgument _ _ => .invalidArgument
  | missingArgument _ _ => .internalError
  | divisionByZero => .divisionByZero
  | typeMismatch _ _ _ => .invalidArgument
  | invalidContext _ _ _ => .indexOutOfRange
  | limitExceeded _ => .limitExceeded

def message : RuntimeError → String
  | undefinedVariable name => s!"undefined variable '{name}'"
  | unknownFunction name => s!"internal error: unknown function '{name}' reached the engine"
  | invalidArgument function fault => s!"{function.name}(): {fault.message}"
  | missingArgument function index => s!"internal error: {function.name}() has no {ordinal index}"
  | divisionByZero => "division by zero"
  | typeMismatch op left right =>
    s!"type mismatch in '{op.symbol}': cannot combine {left.name} and {right.name}"
  | invalidContext name expected actual =>
    s!"invalid context: series '{name}' has {actual} values, expected {expected}"
  | limitExceeded violation => s!"sandbox violation: {violation.message}"

end RuntimeError

end CandleScript
