import CandleScript.Source.Span
import CandleScript.Script.Operator

namespace CandleScript

namespace Token

inductive Kind where
  | name
  | number
  | text
  | op (operator : Operator)
  | assign
  | openParen
  | closeParen
  | comma
  | ifWord
  | elseWord
  | ending
  deriving DecidableEq, Repr

-- The kind of a reserved word.
def Kind.ofWord? (word : String) : Option Kind :=
  if word = "and" then some (.op .both)
  else if word = "or" then some (.op .either)
  else if word = "if" then some .ifWord
  else if word = "else" then some .elseWord
  else none

-- A word that is not reserved is a name.
def Kind.ofWord (word : String) : Kind := (ofWord? word).getD .name

-- The reserved words `if` and `else` can stand wherever a name can; they are
-- refused later, with a better message.
def Kind.isName : Kind → Bool
  | .name | .ifWord | .elseWord => true
  | _ => false

def Kind.describe : Kind → String
  | .name => "identifier"
  | .number => "number"
  | .text => "string"
  | .op operator => s!"'{operator.symbol}'"
  | .assign => "'='"
  | .openParen => "'('"
  | .closeParen => "')'"
  | .comma => "','"
  | .ifWord => "'if'"
  | .elseWord => "'else'"
  | .ending => "end of input"

end Token

structure Token where
  kind : Token.Kind
  -- the text of the token; for strings, what stands between the quotes with
  -- its escapes resolved
  literal : String
  position : Position
  -- the number of source characters
  width : Nat
  deriving DecidableEq, Repr

namespace Token

def span (token : Token) : Span := .spanning token.position token.width

-- How a token reads in an error message.
def describe (token : Token) : String :=
  match token.kind with
  | .name | .number => s!"'{token.literal}'"
  | .text => s!"string \"{token.literal}\""
  | kind => kind.describe

end Token

end CandleScript
