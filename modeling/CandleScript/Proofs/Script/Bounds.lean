import CandleScript.Pipeline
import CandleScript.Proofs.Script.Parse
import CandleScript.Proofs.Script.Tokens
import CandleScript.Proofs.Script.Unambiguous

namespace CandleScript

namespace Ir

namespace Node

mutual

-- How tall a tree is: a leaf and a call without arguments are 1 high.
def height : Node → Nat
  | assign _ value => value.height + 1
  | binary _ left right => max left.height right.height + 1
  | call _ args => heightAll args + 1
  | var _ | const _ => 1

def heightAll : List Node → Nat
  | [] => 0
  | node :: rest => max node.height (heightAll rest)

end

theorem height_le_heightAll {node : Node} {nodes : List Node} (h : node ∈ nodes) :
    node.height ≤ heightAll nodes := by
  induction nodes with
  | nil => cases h
  | cons first rest ih =>
      rw [heightAll]
      rcases List.mem_cons.mp h with rfl | hrest
      · exact Nat.le_max_left _ _
      · exact Nat.le_trans (ih hrest) (Nat.le_max_right _ _)

end Node

theorem height_lowerBinary_le (optimize : Bool) (op : Operator) (left right : Node) :
    (lowerBinary optimize op left right).height ≤ max left.height right.height + 1 := by
  unfold lowerBinary
  split
  · split
    · exact Nat.le_add_left 1 _
    · exact Nat.le_refl _
  · exact Nat.le_refl _

mutual

-- Induction on the tree: lowering replaces trees by lower ones.
theorem height_lower_le (optimize : Bool) : ∀ (node : CandleScript.Node) (known : Constants),
    (lower optimize known node).1.height ≤ node.height
  | .number _ _, _ | .text _ _, _ => Nat.le_refl 1
  | .name name _, known => by
    simp only [lower, lowerName, CandleScript.Node.height]
    split
    · split <;> exact Nat.le_refl 1
    · exact Nat.le_refl 1
  | .assign _ value _, known => Nat.succ_le_succ (height_lower_le optimize value known)
  | .binary op left right _, known => by
    have hleft := height_lower_le optimize left known
    have hright := height_lower_le optimize right (lower optimize known left).2
    have hboth := height_lowerBinary_le optimize op (lower optimize known left).1
      (lower optimize (lower optimize known left).2 right).1
    simp only [lower, CandleScript.Node.height]
    omega
  | .call _ args _, known => Nat.succ_le_succ (height_lowerAll_le optimize args known)

theorem height_lowerAll_le (optimize : Bool) : ∀ (nodes : List CandleScript.Node)
    (known : Constants),
    Node.heightAll (lowerAll optimize known nodes).1 ≤ CandleScript.Node.heightAll nodes
  | [], _ => Nat.le_refl 0
  | node :: rest, known => by
    have hnode := height_lower_le optimize node known
    have hrest := height_lowerAll_le optimize rest (lower optimize known node).2
    simp only [lowerAll, Node.heightAll, CandleScript.Node.heightAll]
    omega

end

end Ir

theorem FitsStatement.ofStatement {words : List Word} {node : Node}
    (h : FitsStatement words node) :
    Parse.OfStatement (fun expression => expression.height ≤ maxNesting) node := by
  cases h with
  | bare h => exact .bare h.height
  | assign name span h => exact .assign name span h.height

theorem FitsScript.heights {words : List Word} {script : Script} (h : FitsScript words script) :
    ∀ node ∈ script, Parse.OfStatement (fun expression => expression.height ≤ maxNesting) node ∧
      node.height ≤ maxNesting + 1 := by
  induction h with
  | nil => exact List.forall_mem_nil _
  | cons hstatement _ _ ih =>
      exact List.forall_mem_cons.mpr ⟨⟨hstatement.ofStatement, hstatement.height⟩, ih⟩

-- Recursion on what a source text yields is bounded. Every expression of its
-- script is at most 128 high, so that an assignment is at most 129 high, and
-- lowering makes nothing higher. What is open at the tokens, the end token
-- apart, is told by the script, and it is never more than 128.
theorem bounds_of_parseSource {source : String} {script : Script}
    (h : parseSource source = .ok script) :
    (∀ node ∈ script,
      Parse.OfStatement (fun expression => expression.height ≤ 128) node ∧ node.height ≤ 129) ∧
    (∀ optimize, ∀ node ∈ (Ir.compile optimize script).statements, node.height ≤ 129) ∧
    ∃ tokens words, tokenize source = .ok tokens ∧ Token.Say tokens.dropLast words ∧
      (∃ counts, OpensScript words script counts) ∧
      ∀ counts, OpensScript words script counts →
        counts.length = words.length ∧ ∀ n ∈ counts, n ≤ 128 := by
  obtain ⟨tokens, htokens, hscript⟩ := parse_of_parseSource h
  obtain ⟨words, hsay, hfits⟩ := fits_of_parse hscript
  obtain ⟨counts, hopens, hcounts⟩ := hfits.opens
  rw [beforeEnd_of_tokenize htokens] at hsay
  refine ⟨hfits.heights, ?_, tokens, words, htokens, hsay, ⟨counts, hopens⟩, ?_⟩
  · intro optimize node hnode
    calc node.height
        ≤ Ir.Node.heightAll (Ir.compile optimize script).statements :=
          Ir.Node.height_le_heightAll hnode
      _ ≤ Node.heightAll script := Ir.height_lowerAll_le optimize script .empty
      _ ≤ 129 := Node.heightAll_le fun node hnode => (hfits.heights node hnode).2
  · intro counts' hopens'
    rw [← hopens.unique hopens']
    exact ⟨hopens.length_eq, hcounts⟩

-- A sign before a bracket with a difference in it, whose right operand is a call
-- of one argument.
theorem bounds_of_parseSource_sign :
    ∃ script words counts, parseSource "y = -(a - f(2))" = .ok script ∧
      OpensScript words script counts ∧ counts.length = 11 ∧ (∀ n ∈ counts, n ≤ 128) ∧
      ∀ node ∈ (Ir.compile true script).statements, node.height ≤ 129 := by
  obtain ⟨script, hscript⟩ : ∃ script, parseSource "y = -(a - f(2))" = .ok script := ⟨_, rfl⟩
  obtain ⟨-, hlowered, tokens, words, htokens, hsay, ⟨counts, hopens⟩, hcounts⟩ :=
    bounds_of_parseSource hscript
  obtain ⟨hlength, hbound⟩ := hcounts counts hopens
  refine ⟨script, words, counts, hscript, hopens, ?_, hbound, hlowered true⟩
  have hwords := congrArg List.length hsay
  have htoken : (tokenize "y = -(a - f(2))").toOption.map (·.dropLast.length) = some 11 := by
    decide +kernel
  rw [htokens] at htoken
  rw [List.length_map, List.length_map] at hwords
  rw [hlength, ← hwords]
  exact Option.some.inj htoken

end CandleScript
