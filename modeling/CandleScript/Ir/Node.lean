import CandleScript.Number.Style
import CandleScript.Script.Operator

namespace CandleScript

namespace Ir

inductive Constant where
  | number (value : Float)
  | bool (value : Bool)
  | text (value : String)
  deriving DecidableEq

namespace Constant

def number? : Constant → Option Float
  | number value => some value
  | _ => none

end Constant

-- A script as it is executed: no positions, and calls by lower-case names.
inductive Node where
  | assign (name : String) (value : Node)
  | binary (op : Operator) (left right : Node)
  | call (func : String) (args : List Node)
  | var (name : String)
  | const (value : Constant)

namespace Node

def constant? : Node → Option Constant
  | const value => some value
  | _ => none

mutual

-- The number of nodes of a tree.
def size : Node → Nat
  | assign _ value => 1 + value.size
  | binary _ left right => 1 + left.size + right.size
  | call _ args => 1 + sizeAll args
  | var _ => 1
  | const _ => 1

def sizeAll : List Node → Nat
  | [] => 0
  | node :: rest => node.size + sizeAll rest

end

end Node

-- The statements of a compiled script.
structure Program where
  statements : List Node

def Program.size (program : Program) : Nat := Node.sizeAll program.statements

end Ir

end CandleScript
