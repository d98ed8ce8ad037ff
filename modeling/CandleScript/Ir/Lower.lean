import CandleScript.Bindings
import CandleScript.Ir.Node
import CandleScript.Script.Node
import CandleScript.Text.Lowercase

namespace CandleScript.Ir

-- The value of an operation on two numbers, where it can be known before the
-- run: not for the logical operators, and neither a division by zero, which
-- the run reports, nor a result that is not finite.
def foldNumbers (op : Operator) (a b : Float) : Option Constant :=
  let finite (x : Float) : Option Constant := if x.isFinite then some (.number x) else none
  match op with
  | .add => finite (a + b)
  | .sub => finite (a - b)
  | .mul => finite (a * b)
  | .div => if b == 0.0 then none else finite (a / b)
  | .gt => some (.bool (b < a))
  | .lt => some (.bool (a < b))
  | .ge => some (.bool (b ≤ a))
  | .le => some (.bool (a ≤ b))
  | .eq => some (.bool (a == b))
  | .ne => some (.bool (a != b))
  | .both | .either => none

-- The names that are known to hold a constant.
abbrev Constants := Bindings Constant

def foldNodes (op : Operator) (left right : Node) : Option Constant :=
  match left.constant?.bind Constant.number?, right.constant?.bind Constant.number? with
  | some a, some b => foldNumbers op a b
  | _, _ => none

-- What an assignment does to the known constants.
def Constants.assign (known : Constants) (optimize : Bool) (name : String) (value : Node) :
    Constants :=
  match value.constant? with
  | some c => if optimize then known.set name c else known.erase name
  | none => known.erase name

def lowerName (known : Constants) (optimize : Bool) (name : String) : Node :=
  match known.get? name with
  | some c => if optimize then .const c else .var name
  | none => .var name

def lowerBinary (optimize : Bool) (op : Operator) (left right : Node) : Node :=
  match foldNodes op left right with
  | some c => if optimize then .const c else .binary op left right
  | none => .binary op left right

mutual

-- One pass in the order of evaluation: every use of a name sees the constant
-- assigned last, if it is known, and operations on constants are carried out.
-- Without `optimize` the tree keeps its form.
def lower (optimize : Bool) (known : Constants) : CandleScript.Node → Node × Constants
  | .number value _ => (.const (.number value), known)
  | .text value _ => (.const (.text value), known)
  | .name name _ => (lowerName known optimize name, known)
  | .assign name value _ =>
    let (value, known) := lower optimize known value
    (.assign name value, known.assign optimize name value)
  | .binary op left right _ =>
    let (left, known) := lower optimize known left
    let (right, known) := lower optimize known right
    (lowerBinary optimize op left right, known)
  | .call callee args _ =>
    let (args, known) := lowerAll optimize known args
    (.call (Text.lowercase callee) args, known)

def lowerAll (optimize : Bool) (known : Constants) : List CandleScript.Node → List Node × Constants
  | [] => ([], known)
  | node :: rest =>
    let (node, known) := lower optimize known node
    let (rest, known) := lowerAll optimize known rest
    (node :: rest, known)

end

-- Calls are never carried out here, so every script has a program.
def compile (optimize : Bool) (script : Script) : Program :=
  ⟨(lowerAll optimize .empty script).1⟩

end CandleScript.Ir
