import CandleScript.Proofs.Script.Word
import CandleScript.Script.Node

namespace CandleScript

mutual

-- The words that spell an expression, whatever the places in its tree. How
-- tightly operators bind plays no part: it only decides between the trees that
-- the same words spell.
inductive Spells : List Word → Node → Prop where
  | name (literal : String) (span : Span) : Spells [.name literal] (.name literal span)
  | number (value : Float) (span : Span) : Spells [.number value] (.number value span)
  | text (value : String) (span : Span) : Spells [.text value] (.text value span)
  | group {words : List Word} {node : Node} :
    Spells words node → Spells (.openParen :: words ++ [.closeParen]) node
  | negated {words : List Word} {operand : Node} (place span : Span) :
    Spells words operand →
      Spells (.op .sub :: words) (.binary .sub (.number 0.0 place) operand span)
  | binary {before after : List Word} {left right : Node} (op : Operator) (span : Span) :
    Spells before left → Spells after right →
      Spells (before ++ .op op :: after) (.binary op left right span)
  | bareCall (callee : String) (span : Span) :
    Spells [.name callee, .openParen, .closeParen] (.call callee [] span)
  | call {words : List Word} {args : List Node} (callee : String) (span : Span) :
    SpellsAll words args →
      Spells (.name callee :: .openParen :: words ++ [.closeParen]) (.call callee args span)

-- Expressions with commas between them, at least one.
inductive SpellsAll : List Word → List Node → Prop where
  | one {words : List Word} {arg : Node} : Spells words arg → SpellsAll words [arg]
  | more {words later : List Word} {arg : Node} {args : List Node} :
    Spells words arg → SpellsAll later args → SpellsAll (words ++ .comma :: later) (arg :: args)

end

-- An expression, or its assignment to a name.
inductive SpellsStatement : List Word → Node → Prop where
  | bare {words : List Word} {node : Node} : Spells words node → SpellsStatement words node
  | assign {words : List Word} {value : Node} (name : String) (span : Span) :
    Spells words value →
      SpellsStatement (.name name :: .assign :: words) (.assign name value span)

-- Statements need nothing between them where the second one can not be taken
-- for a part of the first: it begins with no operator, and no bracket follows
-- a name.
def Apart (words later : List Word) : Prop :=
  (∀ op, later.head? ≠ some (.op op)) ∧
    ∀ name, words.getLast? = some (.name name) → later.head? ≠ some .openParen

inductive SpellsScript : List Word → Script → Prop where
  | nil : SpellsScript [] []
  | cons {words later : List Word} {node : Node} {script : Script} :
    SpellsStatement words node → Apart words later → SpellsScript later script →
      SpellsScript (words ++ later) (node :: script)

-- Words after which an expression can end.
def Word.closes : Word → Bool
  | .name _ | .number _ | .text _ | .closeParen => true
  | _ => false

theorem Spells.exists_getLast? {words : List Word} {node : Node} :
    Spells words node → ∃ last, words.getLast? = some last ∧ last.closes = true
  | .name literal _ => ⟨.name literal, rfl, rfl⟩
  | .number value _ => ⟨.number value, rfl, rfl⟩
  | .text value _ => ⟨.text value, rfl, rfl⟩
  | .group _ => ⟨.closeParen, List.getLast?_concat, rfl⟩
  | .negated _ _ h => by
    obtain ⟨last, hlast, hcloses⟩ := h.exists_getLast?
    exact ⟨last, by simp [List.getLast?_cons, hlast], hcloses⟩
  | .binary _ _ _ h => by
    obtain ⟨last, hlast, hcloses⟩ := h.exists_getLast?
    exact ⟨last, by simp [List.getLast?_append, List.getLast?_cons, hlast], hcloses⟩
  | .bareCall _ _ => ⟨.closeParen, rfl, rfl⟩
  | .call _ _ _ => ⟨.closeParen, List.getLast?_concat, rfl⟩

theorem Spells.ne_nil {words : List Word} {node : Node} (h : Spells words node) : words ≠ [] := by
  rintro rfl
  obtain ⟨last, hlast, -⟩ := h.exists_getLast?
  cases hlast

theorem SpellsAll.ne_nil {words : List Word} {args : List Node} (h : SpellsAll words args) :
    words ≠ [] := by
  cases h with
  | one h => exact h.ne_nil
  | more h _ => exact List.append_ne_nil_of_left_ne_nil h.ne_nil _

theorem SpellsStatement.ne_nil {words : List Word} {node : Node} (h : SpellsStatement words node) :
    words ≠ [] := by
  cases h with
  | bare h => exact h.ne_nil
  | assign _ _ _ => exact List.cons_ne_nil _ _

end CandleScript
