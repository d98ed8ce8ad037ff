namespace CandleScript

inductive Operator where
  | add
  | sub
  | mul
  | div
  | eq
  | ne
  | gt
  | lt
  | ge
  | le
  | both
  | either
  deriving DecidableEq, Repr

namespace Operator

def all : List Operator :=
  [add, sub, mul, div, eq, ne, gt, lt, ge, le, both, either]

def symbol : Operator → String
  | add => "+"
  | sub => "-"
  | mul => "*"
  | div => "/"
  | eq => "=="
  | ne => "!="
  | gt => ">"
  | lt => "<"
  | ge => ">="
  | le => "<="
  | both => "and"
  | either => "or"

def ofSymbol? (text : String) : Option Operator := all.find? fun op => op.symbol = text

-- How tightly an operator binds its operands.
def precedence : Operator → Nat
  | either => 1
  | both => 2
  | eq | ne | gt | lt | ge | le => 3
  | add | sub => 4
  | mul | div => 5

theorem precedence_pos (op : Operator) : 0 < op.precedence := by
  cases op <;> decide

theorem precedence_lt_six (op : Operator) : op.precedence < 6 := by
  cases op <;> decide

def isComparison (op : Operator) : Bool := op.precedence == 3

def isLogical (op : Operator) : Bool := op == both || op == either

end Operator

end CandleScript
