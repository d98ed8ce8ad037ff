import CandleScript.Ir.Write
import CandleScript.Json.Read

namespace CandleScript.Ir

open Json (Fault Reader)

inductive Kind where
  | assign
  | binary
  | call
  | var
  | const
  deriving DecidableEq, Repr

namespace Kind

def all : List Kind := [assign, binary, call, var, const]

def text : Kind → String
  | assign => "Assign"
  | binary => "BinaryOp"
  | call => "Call"
  | var => "Var"
  | const => "Const"

def ofText? (text : String) : Option Kind := all.find? fun kind => kind.text = text

-- Inside another node a kind may also be given by its number.
def ofJson? : Json → Option Kind
  | .text text => ofText? text
  | .integer n => if 0 ≤ n then all[n.toNat]? else none
  | _ => none

-- The fields of a node besides its kind, in their order.
def fields : Kind → List String
  | assign => ["name", "value"]
  | binary => ["op", "left", "right"]
  | call => ["func", "args"]
  | var => ["name"]
  | const => ["value"]

end Kind

def textOf? : Json → Option String
  | .text value => some value
  | _ => none

-- An operator is named by its symbol, or by an object with the symbol as its
-- only key and nothing behind it.
def operatorOf? : Json → Option Operator
  | .text symbol => Operator.ofSymbol? symbol
  | .object [(symbol, .null)] => Operator.ofSymbol? symbol
  | .object [(symbol, .object [])] => Operator.ofSymbol? symbol
  | _ => none

def constantOf? : Json → Option Constant
  | .integer value => some (.number (Float.ofInt value))
  | .real value => some (.number value)
  | .bool value => some (.bool value)
  | .text value => some (.text value)
  | _ => none

-- The value of a key that stands exactly once.
def only? (key : String) (members : List (String × Json)) : Option Json :=
  match members.filter fun member => member.1 = key with
  | [(_, value)] => some value
  | _ => none

-- A node from the values of its fields. `node` reads the nodes inside it.
def assemble (node : Json → Option Node) (kind : Kind) (values : List Json) : Option Node :=
  match kind, values with
  | .assign, [name, value] => return .assign (← textOf? name) (← node value)
  | .binary, [op, left, right] => return .binary (← operatorOf? op) (← node left) (← node right)
  | .call, [func, .list args] => return .call (← textOf? func) (← args.mapM node)
  | .var, [name] => return .var (← textOf? name)
  | .const, [value] => return .const (← constantOf? value)
  | _, _ => none

-- Keys that no field has are ignored.
def ofMembers? (node : Json → Option Node) (kind : Kind) (members : List (String × Json)) :
    Option Node := do
  assemble node kind (← kind.fields.mapM fun key => only? key members)

-- A node is an object with its kind under `kind`, or the list of its kind and
-- its fields. Every level of nesting takes one of `room`.
def nodeOf? : (room : Nat) → Json → Option Node
  | 0, _ => none
  | room + 1, .object members => do
    let kind ← (← only? "kind" members) |> Kind.ofJson?
    ofMembers? (nodeOf? room) kind (members.filter fun member => member.1 ≠ "kind")
  | room + 1, .list (kind :: values) => do
    assemble (nodeOf? room) (← Kind.ofJson? kind) values
  | _ + 1, _ => none

def fitting {α : Type} : Option α → Except Fault α
  | some value => .ok value
  | none => .error .mismatch

-- Where another kind of value stands than was wanted, a scalar has to be well
-- formed first.
def misfit {α : Type} (cs : List Char) : Except Fault α :=
  let refuse : Reader Json := fun _ => .error .mismatch
  match Json.shallow refuse refuse cs with
  | .ok _ => .error .mismatch
  | .error fault => .error fault

-- The kind of a statement has to be a text.
def statementKind : Reader Kind := fun cs =>
  match Json.skipSpace cs with
  | '"' :: rest => do
    let (text, rest) ← Json.textBody rest
    return (← fitting (Kind.ofText? (String.ofList text)), rest)
  | cs => misfit cs

-- What is known of a statement while its members are read. Its kind is judged
-- as soon as it is read, all other members at the end.
structure Draft where
  kind : Option Kind
  members : List (String × Json)

def draftMember (room : Nat) (draft : Draft) (key : String) : Reader Draft := fun cs =>
  if key = "kind" then
    match draft.kind with
    | some _ => .error .mismatch
    | none => do
      let (_, rest) ← Json.colon cs
      let (kind, rest) ← statementKind rest
      return ({ draft with kind := some kind }, rest)
  else do
    let (_, rest) ← Json.colon cs
    let (value, rest) ← Json.value room rest
    return ({ draft with members := draft.members ++ [(key, value)] }, rest)

def objectStatement (room : Nat) : Reader Node := fun cs => do
  let (draft, rest) ← Json.members (draftMember room) ⟨none, []⟩ cs
  let kind ← fitting draft.kind
  return (← fitting (ofMembers? (nodeOf? room) kind draft.members), rest)

def listStatement (room : Nat) : Reader Node := fun cs =>
  match Json.skipSpace cs with
  | ']' :: _ => .error .mismatch
  | cs => do
    let (kind, rest) ← statementKind cs
    let (values, rest) ← Json.itemsFrom (Json.value room) (rest.length + 1) false rest
    return (← fitting (assemble (nodeOf? room) kind values), rest)

-- A statement whose brackets nest at most `room` deep.
def statement (room : Nat) : Reader Node := fun cs =>
  match room, Json.skipSpace cs with
  | 0, '[' :: _ => .error .malformed
  | 0, '\x7b' :: _ => .error .malformed
  | room + 1, '[' :: rest => listStatement room rest
  | room + 1, '\x7b' :: rest => objectStatement room rest
  | _, cs => misfit cs

def statements (room : Nat) : Reader (List Node) := fun cs =>
  match Json.skipSpace cs with
  | '[' :: rest => Json.items (statement room) rest
  | cs => misfit cs

-- A version is a whole number of 32 bits.
def version : Reader Nat := fun cs =>
  match Json.skipSpace cs with
  | [] => .error .truncated
  | c :: rest =>
    if c = '-' ∨ c.isDigit then do
      match ← Json.number (c :: rest) with
      | (.integer n, rest) =>
        if 0 ≤ n ∧ n.toNat < Nat.pow 2 32 then .ok (n.toNat, rest) else .error .mismatch
      | _ => .error .mismatch
    else misfit (c :: rest)

-- How deep the brackets of a document may nest.
def documentRoom : Nat := 127

structure Outline where
  version : Option Nat
  statements : Option (List Node)

-- Fields that a program does not have are skipped.
def outlineMember (outline : Outline) (key : String) : Reader Outline := fun cs =>
  if key = "version" then
    match outline.version with
    | some _ => .error .mismatch
    | none => do
      let (_, rest) ← Json.colon cs
      let (value, rest) ← version rest
      return ({ outline with version := some value }, rest)
  else if key = "statements" then
    match outline.statements with
    | some _ => .error .mismatch
    | none => do
      let (_, rest) ← Json.colon cs
      let (value, rest) ← statements (documentRoom - 2) rest
      return ({ outline with statements := some value }, rest)
  else do
    let (_, rest) ← Json.colon cs
    let (_, rest) ← Json.skip rest
    return (outline, rest)

def objectProgram : Reader (Nat × List Node) := fun cs => do
  let (outline, rest) ← Json.members outlineMember ⟨none, none⟩ cs
  return ((← fitting outline.version, ← fitting outline.statements), rest)

-- The list form of a program has exactly two items.
def listProgram : Reader (Nat × List Node) := fun cs =>
  match Json.skipSpace cs with
  | ']' :: _ => .error .mismatch
  | cs => do
    let (number, rest) ← version cs
    match Json.skipSpace rest with
    | [] => .error .truncated
    | ']' :: _ => .error .mismatch
    | ',' :: rest =>
      match Json.skipSpace rest with
      | [] => .error .truncated
      | ']' :: _ => .error .malformed
      | cs => do
        let (nodes, rest) ← statements (documentRoom - 2) cs
        match Json.skipSpace rest with
        | [] => .error .truncated
        | ']' :: rest => .ok ((number, nodes), rest)
        | _ => .error .malformed
    | _ => .error .malformed

def program : Reader (Nat × List Node) := fun cs =>
  match Json.skipSpace cs with
  | '[' :: rest => listProgram rest
  | '\x7b' :: rest => objectProgram rest
  | cs => misfit cs

inductive ReadError where
  | fault (fault : Fault)
  | version (found : Nat)
  deriving DecidableEq, Repr

-- Reads a document back. The version is looked at last.
def Program.ofDocument (text : String) : Except ReadError Program :=
  match program text.toList with
  | .error fault => .error (.fault fault)
  | .ok ((number, nodes), rest) =>
    match Json.finish rest with
    | .error fault => .error (.fault fault)
    | .ok () => if number = documentVersion then .ok ⟨nodes⟩ else .error (.version number)

end CandleScript.Ir
