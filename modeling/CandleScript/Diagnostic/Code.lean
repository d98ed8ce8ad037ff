namespace CandleScript.Diagnostic

-- What is reported. The letter of a code's text names the stage: lexical (L),
-- parse (P), semantic (S) or run time (R).
inductive Code where
  | illegalCharacter
  | unterminatedString
  | invalidNumber
  | unexpectedToken
  | missingClosingParen
  | missingExpression
  | nestingTooDeep
  | forbiddenWord
  | reservedAssignment
  | unknownFunction
  | undefinedVariable
  | wrongArgumentCount
  | mismatchedTypes
  | unusedExpression
  | divisionByZero
  | indexOutOfRange
  | missingValue
  | limitExceeded
  | invalidArgument
  | internalError
  deriving DecidableEq, Repr

namespace Code

def all : List Code :=
  [illegalCharacter, unterminatedString, invalidNumber, unexpectedToken, missingClosingParen,
    missingExpression, nestingTooDeep, forbiddenWord, reservedAssignment, unknownFunction,
    undefinedVariable, wrongArgumentCount, mismatchedTypes, unusedExpression, divisionByZero,
    indexOutOfRange, missingValue, limitExceeded, invalidArgument, internalError]

def text : Code → String
  | illegalCharacter => "L001"
  | unterminatedString => "L002"
  | invalidNumber => "L003"
  | unexpectedToken => "P001"
  | missingClosingParen => "P002"
  | missingExpression => "P003"
  | nestingTooDeep => "P004"
  | forbiddenWord => "S001"
  | reservedAssignment => "S002"
  | unknownFunction => "S003"
  | undefinedVariable => "S004"
  | wrongArgumentCount => "S005"
  | mismatchedTypes => "S006"
  | unusedExpression => "S007"
  | divisionByZero => "R001"
  | indexOutOfRange => "R002"
  | missingValue => "R003"
  | limitExceeded => "R004"
  | invalidArgument => "R005"
  | internalError => "R006"

def ofText? (text : String) : Option Code := all.find? fun code => code.text = text

end Code

end CandleScript.Diagnostic
