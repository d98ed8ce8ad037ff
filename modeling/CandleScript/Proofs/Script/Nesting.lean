import CandleScript.Proofs.Script.Grammar
import CandleScript.Script.SourceError

namespace CandleScript

namespace Node

mutual

-- How tall a tree is: a leaf and a call without arguments are 1 high.
def height : Node → Nat
  | assign _ value _ => value.height + 1
  | binary _ left right _ => max left.height right.height + 1
  | call _ args _ => heightAll args + 1
  | name _ _ | number _ _ | text _ _ => 1

-- How tall the tallest of some trees is.
def heightAll : List Node → Nat
  | [] => 0
  | node :: rest => max node.height (heightAll rest)

end

theorem height_pos (node : Node) : 0 < node.height := by
  cases node <;> simp [height]

theorem heightAll_le {nodes : List Node} {bound : Nat} (h : ∀ node ∈ nodes, node.height ≤ bound) :
    heightAll nodes ≤ bound := by
  induction nodes with
  | nil => exact Nat.zero_le _
  | cons node rest ih =>
      obtain ⟨hnode, hrest⟩ := List.forall_mem_cons.mp h
      exact Nat.max_le.mpr ⟨hnode, ih hrest⟩

-- The zero in front of a sign is never taller than what the sign stands before.
theorem height_negated (place span : Span) (operand : Node) :
    (binary .sub (number 0.0 place) operand span).height = operand.height + 1 := by
  rw [height, height, Nat.max_eq_right operand.height_pos]

end Node

mutual

-- The words that spell an expression, with the number of constructs that are
-- open at each of them: brackets of groups and of calls with arguments, signs,
-- and right operands. A bracket and a sign stand inside their own construct, an
-- operator in front of its right operand, and `opened` constructs stand around
-- the whole expression.
inductive Opens : (opened : Nat) → List Word → Node → (counts : List Nat) → Prop where
  | name {opened : Nat} (literal : String) (span : Span) :
    Opens opened [.name literal] (.name literal span) [opened]
  | number {opened : Nat} (value : Float) (span : Span) :
    Opens opened [.number value] (.number value span) [opened]
  | text {opened : Nat} (value : String) (span : Span) :
    Opens opened [.text value] (.text value span) [opened]
  | group {opened : Nat} {words : List Word} {node : Node} {counts : List Nat} :
    Opens (opened + 1) words node counts →
      Opens opened (.openParen :: words ++ [.closeParen]) node
        ((opened + 1) :: counts ++ [opened + 1])
  | negated {opened : Nat} {words : List Word} {operand : Node} {counts : List Nat}
    (place span : Span) :
    Opens (opened + 1) words operand counts →
      Opens opened (.op .sub :: words) (.binary .sub (.number 0.0 place) operand span)
        ((opened + 1) :: counts)
  | binary {opened : Nat} {before after : List Word} {left right : Node}
    {counts later : List Nat} (op : Operator) (span : Span) :
    Opens opened before left counts → Opens (opened + 1) after right later →
      Opens opened (before ++ .op op :: after) (.binary op left right span)
        (counts ++ opened :: later)
  | bareCall {opened : Nat} (callee : String) (span : Span) :
    Opens opened [.name callee, .openParen, .closeParen] (.call callee [] span)
      [opened, opened, opened]
  | call {opened : Nat} {words : List Word} {args : List Node} {counts : List Nat}
    (callee : String) (span : Span) :
    OpensAll (opened + 1) words args counts →
      Opens opened (.name callee :: .openParen :: words ++ [.closeParen]) (.call callee args span)
        (opened :: (opened + 1) :: counts ++ [opened + 1])

inductive OpensAll : (opened : Nat) → List Word → List Node → (counts : List Nat) → Prop where
  | one {opened : Nat} {words : List Word} {arg : Node} {counts : List Nat} :
    Opens opened words arg counts → OpensAll opened words [arg] counts
  | more {opened : Nat} {words later : List Word} {arg : Node} {args : List Node}
    {counts counts' : List Nat} :
    Opens opened words arg counts → OpensAll opened later args counts' →
      OpensAll opened (words ++ .comma :: later) (arg :: args) (counts ++ opened :: counts')

end

inductive OpensStatement : List Word → Node → (counts : List Nat) → Prop where
  | bare {words : List Word} {node : Node} {counts : List Nat} :
    Opens 0 words node counts → OpensStatement words node counts
  | assign {words : List Word} {value : Node} {counts : List Nat} (name : String) (span : Span) :
    Opens 0 words value counts →
      OpensStatement (.name name :: .assign :: words) (.assign name value span)
        (0 :: 0 :: counts)

inductive OpensScript : List Word → Script → (counts : List Nat) → Prop where
  | nil : OpensScript [] [] []
  | cons {words later : List Word} {node : Node} {script : Script} {counts counts' : List Nat} :
    OpensStatement words node counts → OpensScript later script counts' →
      OpensScript (words ++ later) (node :: script) (counts ++ counts')

mutual

-- Without the numbers it is the spelling of the tree.
theorem Opens.spells {opened : Nat} {words : List Word} {node : Node} {counts : List Nat} :
    Opens opened words node counts → Spells words node
  | .name literal span => .name literal span
  | .number value span => .number value span
  | .text value span => .text value span
  | .group h => .group h.spells
  | .negated place span h => .negated place span h.spells
  | .binary op span hleft hright => .binary op span hleft.spells hright.spells
  | .bareCall callee span => .bareCall callee span
  | .call callee span h => .call callee span h.spells

theorem OpensAll.spells {opened : Nat} {words : List Word} {args : List Node}
    {counts : List Nat} : OpensAll opened words args counts → SpellsAll words args
  | .one h => .one h.spells
  | .more hfirst hlater => .more hfirst.spells hlater.spells

end

-- An expression inside of `opened` constructs that is spelled within the bounds
-- on nesting and height.
structure Fits (opened : Nat) (words : List Word) (node : Node) : Prop where
  opens : ∃ counts, Opens opened words node counts ∧ ∀ n ∈ counts, n ≤ maxNesting
  room : opened ≤ maxNesting
  height : node.height ≤ maxNesting

-- Arguments that are spelled within the bound on nesting.
structure FitsAll (opened : Nat) (words : List Word) (args : List Node) : Prop where
  opens : ∃ counts, OpensAll opened words args counts ∧ ∀ n ∈ counts, n ≤ maxNesting
  room : opened ≤ maxNesting

namespace Fits

variable {opened : Nat} {words : List Word} {node : Node}

theorem spells (h : Fits opened words node) : Spells words node := by
  obtain ⟨_, hopens, -⟩ := h.opens
  exact hopens.spells

theorem leaf {word : Word} (hopened : opened ≤ maxNesting)
    (hopens : Opens opened [word] node [opened]) (hheight : node.height = 1) :
    Fits opened [word] node where
  opens := ⟨_, hopens, by simpa using hopened⟩
  room := hopened
  height := by
    rw [hheight]
    decide

theorem group (h : Fits (opened + 1) words node) :
    Fits opened (.openParen :: words ++ [.closeParen]) node where
  opens := by
    obtain ⟨counts, hopens, hcounts⟩ := h.opens
    refine ⟨_, hopens.group, List.forall_mem_append.mpr ⟨?_, List.forall_mem_singleton.mpr h.room⟩⟩
    exact List.forall_mem_cons.mpr ⟨h.room, hcounts⟩
  room := Nat.le_of_succ_le h.room
  height := h.height

theorem negated (h : Fits (opened + 1) words node) (place span : Span)
    (hheight : (Node.binary .sub (.number 0.0 place) node span).height ≤ maxNesting) :
    Fits opened (.op .sub :: words) (.binary .sub (.number 0.0 place) node span) where
  opens := by
    obtain ⟨counts, hopens, hcounts⟩ := h.opens
    exact ⟨_, hopens.negated place span, by simpa using ⟨h.room, hcounts⟩⟩
  room := Nat.le_of_succ_le h.room
  height := hheight

theorem binary {left right : Node} {before after : List Word} (hleft : Fits opened before left)
    (hright : Fits (opened + 1) after right) (op : Operator) (span : Span)
    (hheight : max left.height right.height + 1 ≤ maxNesting) :
    Fits opened (before ++ .op op :: after) (.binary op left right span) where
  opens := by
    obtain ⟨counts, hopens, hcounts⟩ := hleft.opens
    obtain ⟨later, hlater, hlaterCounts⟩ := hright.opens
    refine ⟨_, hopens.binary op span hlater, ?_⟩
    exact List.forall_mem_append.mpr ⟨hcounts, List.forall_mem_cons.mpr ⟨hleft.room, hlaterCounts⟩⟩
  room := hleft.room
  height := hheight

theorem bareCall (hopened : opened ≤ maxNesting) (callee : String) (span : Span) :
    Fits opened [.name callee, .openParen, .closeParen] (.call callee [] span) where
  opens := ⟨_, .bareCall callee span, by simpa using hopened⟩
  room := hopened
  height := by
    simp only [Node.height, Node.heightAll]
    decide

theorem call {args : List Node} (h : FitsAll (opened + 1) words args) (callee : String)
    (span : Span) (hheight : Node.heightAll args + 1 ≤ maxNesting) :
    Fits opened (.name callee :: .openParen :: words ++ [.closeParen])
      (.call callee args span) where
  opens := by
    obtain ⟨counts, hopens, hcounts⟩ := h.opens
    refine ⟨_, .call callee span hopens,
      List.forall_mem_append.mpr ⟨?_, List.forall_mem_singleton.mpr h.room⟩⟩
    exact List.forall_mem_cons.mpr
      ⟨Nat.le_of_succ_le h.room, List.forall_mem_cons.mpr ⟨h.room, hcounts⟩⟩
  room := Nat.le_of_succ_le h.room
  height := hheight

end Fits

namespace FitsAll

variable {opened : Nat} {words : List Word} {arg : Node}

theorem one (h : Fits opened words arg) : FitsAll opened words [arg] where
  opens := by
    obtain ⟨counts, hopens, hcounts⟩ := h.opens
    exact ⟨counts, .one hopens, hcounts⟩
  room := h.room

theorem more (h : Fits opened words arg) {later : List Word} {args : List Node}
    (hlater : FitsAll opened later args) :
    FitsAll opened (words ++ .comma :: later) (arg :: args) where
  opens := by
    obtain ⟨counts, hopens, hcounts⟩ := h.opens
    obtain ⟨counts', hopens', hcounts'⟩ := hlater.opens
    refine ⟨_, .more hopens hopens', ?_⟩
    exact List.forall_mem_append.mpr ⟨hcounts, List.forall_mem_cons.mpr ⟨h.room, hcounts'⟩⟩
  room := h.room

end FitsAll

inductive FitsStatement : List Word → Node → Prop where
  | bare {words : List Word} {node : Node} : Fits 0 words node → FitsStatement words node
  | assign {words : List Word} {value : Node} (name : String) (span : Span) :
    Fits 0 words value → FitsStatement (.name name :: .assign :: words) (.assign name value span)

theorem FitsStatement.spells {words : List Word} {node : Node} (h : FitsStatement words node) :
    SpellsStatement words node := by
  cases h with
  | bare h => exact .bare h.spells
  | assign name span h => exact .assign name span h.spells

theorem FitsStatement.height {words : List Word} {node : Node} (h : FitsStatement words node) :
    node.height ≤ maxNesting + 1 := by
  cases h with
  | bare h => exact Nat.le_succ_of_le h.height
  | assign name span h => exact Nat.succ_le_succ h.height

theorem FitsStatement.opens {words : List Word} {node : Node} (h : FitsStatement words node) :
    ∃ counts, OpensStatement words node counts ∧ ∀ n ∈ counts, n ≤ maxNesting := by
  cases h with
  | bare h =>
      obtain ⟨counts, hopens, hcounts⟩ := h.opens
      exact ⟨counts, .bare hopens, hcounts⟩
  | assign name span h =>
      obtain ⟨counts, hopens, hcounts⟩ := h.opens
      exact ⟨_, .assign name span hopens, by simpa using hcounts⟩

inductive FitsScript : List Word → Script → Prop where
  | nil : FitsScript [] []
  | cons {words later : List Word} {node : Node} {script : Script} :
    FitsStatement words node → Apart words later → FitsScript later script →
      FitsScript (words ++ later) (node :: script)

theorem FitsScript.spells {words : List Word} {script : Script} (h : FitsScript words script) :
    SpellsScript words script := by
  induction h with
  | nil => exact .nil
  | cons hstatement hapart _ ih => exact .cons hstatement.spells hapart ih

theorem FitsScript.opens {words : List Word} {script : Script} (h : FitsScript words script) :
    ∃ counts, OpensScript words script counts ∧ ∀ n ∈ counts, n ≤ maxNesting := by
  induction h with
  | nil => exact ⟨[], .nil, List.forall_mem_nil _⟩
  | cons hstatement _ _ ih =>
      obtain ⟨counts, hopens, hcounts⟩ := hstatement.opens
      obtain ⟨counts', hopens', hcounts'⟩ := ih
      exact ⟨_, .cons hopens hopens', List.forall_mem_append.mpr ⟨hcounts, hcounts'⟩⟩

end CandleScript
