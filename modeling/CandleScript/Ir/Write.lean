import CandleScript.Ir.Node
import CandleScript.Json.Write

namespace CandleScript.Ir

-- The only version of the document format.
def documentVersion : Nat := 1

def Constant.toJson : Constant → Json
  | number value => .real value
  | bool value => .bool value
  | text value => .text value

mutual

-- Every node names its kind first.
def Node.toJson : Node → Json
  | .assign name value =>
    .object [("kind", .text "Assign"), ("name", .text name), ("value", value.toJson)]
  | .binary op left right =>
    .object [("kind", .text "BinaryOp"), ("op", .text op.symbol), ("left", left.toJson),
      ("right", right.toJson)]
  | .call func args =>
    .object [("kind", .text "Call"), ("func", .text func), ("args", .list (nodesToJson args))]
  | .var name => .object [("kind", .text "Var"), ("name", .text name)]
  | .const value => .object [("kind", .text "Const"), ("value", value.toJson)]

def nodesToJson : List Node → List Json
  | [] => []
  | node :: rest => node.toJson :: nodesToJson rest

end

def Program.toJson (program : Program) : Json :=
  .object [("version", .count documentVersion), ("statements", .list (nodesToJson program.statements))]

def Program.document (program : Program) : String := program.toJson.compact

def Program.prettyDocument (program : Program) : String := program.toJson.pretty

end CandleScript.Ir
