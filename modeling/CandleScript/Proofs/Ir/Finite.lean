import CandleScript.Ir.Lower
import CandleScript.Proofs.Ir.Node
import CandleScript.Proofs.Json.Double

namespace CandleScript

namespace Node

mutual

-- A tree all of whose numbers are finite.
def Finite : Node → Prop
  | assign _ value _ => value.Finite
  | binary _ left right _ => left.Finite ∧ right.Finite
  | call _ args _ => AllFinite args
  | name _ _ => True
  | number value _ => value.isFinite = true
  | text _ _ => True

def AllFinite : List Node → Prop
  | [] => True
  | node :: rest => node.Finite ∧ AllFinite rest

end

theorem allFinite_iff {nodes : List Node} : AllFinite nodes ↔ ∀ node ∈ nodes, node.Finite := by
  induction nodes with
  | nil => simp [AllFinite]
  | cons node rest ih => rw [AllFinite, ih, List.forall_mem_cons]

end Node

namespace Ir

def Constant.Finite : Constant → Prop
  | .number value => value.isFinite = true
  | .bool _ => True
  | .text _ => True

namespace Node

mutual

def Finite : Node → Prop
  | assign _ value => value.Finite
  | binary _ left right => left.Finite ∧ right.Finite
  | call _ args => AllFinite args
  | var _ => True
  | const value => value.Finite

def AllFinite : List Node → Prop
  | [] => True
  | node :: rest => node.Finite ∧ AllFinite rest

end

end Node

theorem Constant.Finite.readable {c : Constant} (h : c.Finite) : c.toJson.Readable := by
  cases c with
  | number value => exact Json.readsBack_of_isFinite h
  | bool value => trivial
  | text value => trivial

mutual

theorem readable_toJson : ∀ {node : Node}, node.Finite → node.toJson.Readable
  | .assign _ _, h => ⟨trivial, trivial, readable_toJson h, trivial⟩
  | .binary _ _ _, h =>
    ⟨trivial, trivial, readable_toJson h.1, readable_toJson h.2, trivial⟩
  | .call _ _, h => ⟨trivial, trivial, readable_nodesToJson h, trivial⟩
  | .var _, _ => ⟨trivial, trivial, trivial⟩
  | .const _, h => ⟨trivial, Constant.Finite.readable h, trivial⟩

theorem readable_nodesToJson : ∀ {nodes : List Node}, Node.AllFinite nodes →
    Json.ReadableItems (nodesToJson nodes)
  | [], _ => trivial
  | _ :: _, h => ⟨readable_toJson h.1, readable_nodesToJson h.2⟩

end

theorem finite_foldNumbers {op : Operator} {a b : Float} {c : Constant}
    (h : foldNumbers op a b = some c) : c.Finite := by
  have hfinite : ∀ x : Float, (if x.isFinite then some (Constant.number x) else none) = some c →
      c.Finite := by
    intro x hx
    split at hx
    · rename_i hfinite
      cases hx
      exact hfinite
    · contradiction
  cases op with
  | add => exact hfinite _ h
  | sub => exact hfinite _ h
  | mul => exact hfinite _ h
  | div =>
      rw [foldNumbers] at h
      split at h
      · contradiction
      · exact hfinite _ h
  | both => contradiction
  | either => contradiction
  | _ =>
      cases h
      trivial

theorem finite_foldNodes {op : Operator} {left right : Node} {c : Constant}
    (h : foldNodes op left right = some c) : c.Finite := by
  rw [foldNodes] at h
  split at h
  · exact finite_foldNumbers h
  · contradiction

theorem finite_lowerName {known : Constants} (hknown : known.Each Constant.Finite) (optimize : Bool)
    (name : String) : (lowerName known optimize name).Finite := by
  rw [lowerName]
  split
  · rename_i c hc
    split
    · exact hknown name c hc
    · trivial
  · trivial

theorem finite_lowerBinary (optimize : Bool) (op : Operator) {left right : Node}
    (hleft : left.Finite) (hright : right.Finite) :
    (lowerBinary optimize op left right).Finite := by
  rw [lowerBinary]
  split
  · rename_i c hc
    split
    · exact finite_foldNodes hc
    · exact ⟨hleft, hright⟩
  · exact ⟨hleft, hright⟩

theorem each_finite_assign {known : Constants} (hknown : known.Each Constant.Finite)
    (optimize : Bool) (name : String) {value : Node} (hvalue : value.Finite) :
    (known.assign optimize name value).Each Constant.Finite := by
  rw [Constants.assign]
  split
  · rename_i c hc
    split
    · refine hknown.set name ?_
      cases value <;> cases hc
      exact hvalue
    · exact hknown.erase name
  · exact hknown.erase name

mutual

-- Lowering introduces no number that is not finite.
theorem finite_lower (optimize : Bool) : ∀ (node : CandleScript.Node) (known : Constants),
    node.Finite → known.Each Constant.Finite →
      (lower optimize known node).1.Finite ∧ (lower optimize known node).2.Each Constant.Finite
  | .number _ _, _, h, hknown => ⟨h, hknown⟩
  | .text _ _, _, _, hknown => ⟨trivial, hknown⟩
  | .name name _, _, _, hknown => ⟨finite_lowerName hknown optimize name, hknown⟩
  | .assign name value _, known, h, hknown => by
    obtain ⟨hvalue, hlater⟩ := finite_lower optimize value known h hknown
    exact ⟨hvalue, each_finite_assign hlater optimize name hvalue⟩
  | .binary op left right _, known, h, hknown => by
    obtain ⟨hleft, hmiddle⟩ := finite_lower optimize left known h.1 hknown
    obtain ⟨hright, hlater⟩ := finite_lower optimize right _ h.2 hmiddle
    exact ⟨finite_lowerBinary optimize op hleft hright, hlater⟩
  | .call _ args _, known, h, hknown => finite_lowerAll optimize args known h hknown

theorem finite_lowerAll (optimize : Bool) : ∀ (nodes : List CandleScript.Node) (known : Constants),
    CandleScript.Node.AllFinite nodes → known.Each Constant.Finite →
      Node.AllFinite (lowerAll optimize known nodes).1 ∧
        (lowerAll optimize known nodes).2.Each Constant.Finite
  | [], _, _, hknown => ⟨trivial, hknown⟩
  | node :: rest, known, h, hknown => by
    obtain ⟨hnode, hmiddle⟩ := finite_lower optimize node known h.1 hknown
    obtain ⟨hrest, hlater⟩ := finite_lowerAll optimize rest _ h.2 hmiddle
    exact ⟨⟨hnode, hrest⟩, hlater⟩

end

theorem finite_compile (optimize : Bool) {script : Script}
    (h : CandleScript.Node.AllFinite script) : Node.AllFinite (compile optimize script).statements :=
  (finite_lowerAll optimize script .empty h (Bindings.each_empty _)).1

end Ir

end CandleScript
