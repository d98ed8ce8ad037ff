import CandleScript.Ir.Read
import CandleScript.Proofs.Json.Layout

namespace CandleScript.Ir

open Json (depth depthOfItems depthOfMembers)

theorem operatorOf?_symbol (op : Operator) : operatorOf? (.text op.symbol) = some op := by
  cases op <;> rfl

theorem constantOf?_toJson (c : Constant) : constantOf? c.toJson = some c := by
  cases c <;> rfl

theorem ofText?_text (kind : Kind) : Kind.ofText? kind.text = some kind := by
  cases kind <;> rfl

def Node.kind : Node → Kind
  | .assign _ _ => .assign
  | .binary _ _ _ => .binary
  | .call _ _ => .call
  | .var _ => .var
  | .const _ => .const

-- The members of a node's object after its kind.
def Node.fields : Node → List (String × Json)
  | .assign name value => [("name", .text name), ("value", value.toJson)]
  | .binary op left right =>
    [("op", .text op.symbol), ("left", left.toJson), ("right", right.toJson)]
  | .call func args => [("func", .text func), ("args", .list (nodesToJson args))]
  | .var name => [("name", .text name)]
  | .const value => [("value", value.toJson)]

theorem Node.toJson_eq (node : Node) :
    node.toJson = .object (("kind", .text node.kind.text) :: node.fields) := by
  cases node <;> simp only [Node.toJson, Node.fields, Node.kind, Kind.text]

theorem Node.depth_toJson (node : Node) : node.toJson.depth = depthOfMembers node.fields + 1 := by
  rw [node.toJson_eq]
  simp only [depth, depthOfMembers, Nat.zero_max]

theorem Node.ne_kind (node : Node) : ∀ field ∈ node.fields, field.1 ≠ "kind" := by
  cases node <;> simp [Node.fields]

theorem Node.filter_fields (node : Node) (kind : Json) :
    (("kind", kind) :: node.fields).filter (fun member => member.1 ≠ "kind") = node.fields := by
  rw [List.filter_cons_of_neg (by simp), List.filter_eq_self]
  intro field hfield
  simpa using node.ne_kind field hfield

theorem Node.only?_kind (node : Node) (kind : Json) :
    only? "kind" (("kind", kind) :: node.fields) = some kind := by
  have hfields : node.fields.filter (fun member => member.1 = "kind") = [] := by
    rw [List.filter_eq_nil_iff]
    intro field hfield
    simpa using node.ne_kind field hfield
  rw [only?, List.filter_cons_of_pos (by simp), hfields]

-- A reader that reads the nodes inside a node back.
def Node.ReadInside (read : Json → Option Node) : Node → Prop
  | .assign _ value => read value.toJson = some value
  | .binary _ left right => read left.toJson = some left ∧ read right.toJson = some right
  | .call _ args => (nodesToJson args).mapM read = some args
  | .var _ | .const _ => True

theorem ofMembers?_fields {read : Json → Option Node} {node : Node} (h : node.ReadInside read) :
    ofMembers? read node.kind node.fields = some node := by
  cases node with
  | assign name value =>
      simp only [Node.ReadInside] at h
      simp [ofMembers?, Node.kind, Node.fields, Kind.fields, only?, assemble, textOf?, h]
  | binary op left right =>
      simp only [Node.ReadInside] at h
      simp [ofMembers?, Node.kind, Node.fields, Kind.fields, only?, assemble, operatorOf?_symbol, h]
  | call func args =>
      simp only [Node.ReadInside] at h
      simp [ofMembers?, Node.kind, Node.fields, Kind.fields, only?, assemble, textOf?, h]
  | var name =>
      simp [ofMembers?, Node.kind, Node.fields, Kind.fields, only?, assemble, textOf?]
  | const value =>
      simp [ofMembers?, Node.kind, Node.fields, Kind.fields, only?, assemble, constantOf?_toJson]

theorem nodeOf?_succ (room : Nat) {node : Node} (h : node.ReadInside (nodeOf? room)) :
    nodeOf? (room + 1) node.toJson = some node := by
  rw [node.toJson_eq, nodeOf?, node.only?_kind, node.filter_fields]
  simp only [Option.bind_eq_bind, Option.bind_some, Kind.ofJson?, ofText?_text]
  exact ofMembers?_fields h

theorem nodeOf?_of_readInside {node : Node}
    (h : ∀ room, depthOfMembers node.fields ≤ room → node.ReadInside (nodeOf? room)) {room : Nat}
    (hroom : node.toJson.depth ≤ room) : nodeOf? room node.toJson = some node := by
  rw [node.depth_toJson] at hroom
  cases room with
  | zero => exact absurd hroom (Nat.not_succ_le_zero _)
  | succ room => exact nodeOf?_succ room (h room (Nat.le_of_succ_le_succ hroom))

mutual

-- One level of brackets is used up by every node, and a second one by the
-- arguments of a call.
theorem Node.readInside_nodeOf? : ∀ (node : Node) (room : Nat), depthOfMembers node.fields ≤ room →
    node.ReadInside (nodeOf? room)
  | .assign name value, room, h => by
    simp only [Node.fields, depth, depthOfMembers] at h
    exact nodeOf?_of_readInside (Node.readInside_nodeOf? value) (by omega)
  | .binary op left right, room, h => by
    simp only [Node.fields, depth, depthOfMembers] at h
    exact ⟨nodeOf?_of_readInside (Node.readInside_nodeOf? left) (by omega),
      nodeOf?_of_readInside (Node.readInside_nodeOf? right) (by omega)⟩
  | .call func args, room, h => by
    simp only [Node.fields, depth, depthOfMembers] at h
    exact mapM_nodeOf? args room (by omega)
  | .var name, room, h => trivial
  | .const value, room, h => trivial

theorem mapM_nodeOf? : ∀ (nodes : List Node) (room : Nat), depthOfItems (nodesToJson nodes) ≤ room →
    (nodesToJson nodes).mapM (nodeOf? room) = some nodes
  | [], room, h => rfl
  | node :: rest, room, h => by
    rw [nodesToJson, depthOfItems, Nat.max_le] at h
    rw [nodesToJson, List.mapM_cons, nodeOf?_of_readInside (Node.readInside_nodeOf? node) h.1,
      mapM_nodeOf? rest room h.2]
    rfl

end

-- Nodes whose brackets nest no deeper than there is room for are read back.
theorem nodeOf?_toJson (node : Node) (room : Nat) (h : node.toJson.depth ≤ room) :
    nodeOf? room node.toJson = some node :=
  nodeOf?_of_readInside node.readInside_nodeOf? h

end CandleScript.Ir
