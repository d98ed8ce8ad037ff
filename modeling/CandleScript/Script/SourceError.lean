import CandleScript.Diagnostic.Code
import CandleScript.Script.Token
import CandleScript.Text.Lines

namespace CandleScript

-- The deepest nesting, and the tallest tree, that a script may have.
def maxNesting : Nat := 128

inductive LexFault where
  | illegalCharacter (c : Char)
  | unterminatedString
  | invalidNumber (text : String)
  deriving DecidableEq, Repr

def LexFault.code : LexFault → Diagnostic.Code
  | .illegalCharacter _ => .illegalCharacter
  | .unterminatedString => .unterminatedString
  | .invalidNumber _ => .invalidNumber

def LexFault.message : LexFault → String
  | .illegalCharacter c => s!"illegal character '{c}'"
  | .unterminatedString => "unterminated string literal"
  | .invalidNumber text => s!"invalid number '{text}'"

structure LexError where
  fault : LexFault
  position : Position
  deriving DecidableEq, Repr

inductive ParseFault where
  -- another token was expected
  | unexpected (found : Token) (expected : String)
  -- the text of a number token is no number
  | badNumber (literal : String)
  -- a bracket opened earlier is not closed where it should be
  | unclosed (opened : Position) (found : Token)
  -- the tokens end where more was expected
  | ended (expected : String)
  | tooDeep
  deriving DecidableEq, Repr

def ParseFault.code : ParseFault → Diagnostic.Code
  | .unexpected _ _ => .unexpectedToken
  | .badNumber _ => .unexpectedToken
  | .unclosed _ _ => .missingClosingParen
  | .ended _ => .missingExpression
  | .tooDeep => .nestingTooDeep

def ParseFault.message : ParseFault → String
  | .unexpected found expected => s!"unexpected {found.describe}, expected {expected}"
  | .badNumber literal => s!"invalid number literal '{literal}'"
  | .unclosed opened found => s!"expected ')' to close '(' at {opened.text}, found {found.describe}"
  | .ended expected => s!"expected {expected}, found end of input"
  | .tooDeep => s!"expression nests deeper than {maxNesting} levels"

structure ParseError where
  fault : ParseFault
  position : Position
  deriving DecidableEq, Repr

def LexError.text (e : LexError) : String :=
  s!"lexical error at {e.position.text}: {e.fault.message}"

def ParseError.text (e : ParseError) : String :=
  s!"parse error at {e.position.text}: {e.fault.message}"

-- A message under the source line it is about, with a caret at the column.
def inContext (source : String) (position : Position) (message : String) : String :=
  let line := (Text.lines source)[position.line - 1]?.getD []
  let caret := List.replicate (position.column - 1) ' ' ++ ['^']
  String.ofList (line ++ '\n' :: caret ++ '\n' :: message.toList)

def LexError.inContext (e : LexError) (source : String) : String :=
  CandleScript.inContext source e.position e.text

def ParseError.inContext (e : ParseError) (source : String) : String :=
  CandleScript.inContext source e.position e.text

end CandleScript
