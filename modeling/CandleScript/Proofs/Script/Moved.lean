import CandleScript.Proofs.Source.Order
import CandleScript.Script.Node
import CandleScript.Script.Tokens

namespace CandleScript

-- The same place so many lines further down.
def Position.moved (lines : Nat) (p : Position) : Position := ⟨p.line + lines, p.column⟩

def Span.moved (lines : Nat) (span : Span) : Span := ⟨span.start.moved lines, span.stop.moved lines⟩

def Token.moved (lines : Nat) (token : Token) : Token :=
  { token with position := token.position.moved lines }

namespace Node

mutual

-- The same tree so many lines further down.
def moved (lines : Nat) : Node → Node
  | assign target value span => assign target (value.moved lines) (span.moved lines)
  | binary op left right span =>
    binary op (left.moved lines) (right.moved lines) (span.moved lines)
  | call callee args span => call callee (movedAll lines args) (span.moved lines)
  | name literal span => name literal (span.moved lines)
  | number value span => number value (span.moved lines)
  | text value span => text value (span.moved lines)

def movedAll (lines : Nat) : List Node → List Node
  | [] => []
  | node :: rest => node.moved lines :: movedAll lines rest

end

theorem movedAll_eq_map (lines : Nat) (nodes : List Node) :
    movedAll lines nodes = nodes.map (moved lines) := by
  induction nodes with
  | nil => rfl
  | cons node rest ih => rw [movedAll, ih, List.map_cons]

end Node

variable {lines : Nat}

namespace Position

theorem line_moved (p : Position) : (p.moved lines).line = p.line + lines := rfl

theorem column_moved (p : Position) : (p.moved lines).column = p.column := rfl

theorem moved_lt_moved_iff {p q : Position} : p.moved lines < q.moved lines ↔ p < q := by
  simp [lt_iff, moved]

theorem isBefore_moved (p q : Position) :
    (p.moved lines).isBefore (q.moved lines) = p.isBefore q := by
  rw [Bool.eq_iff_iff, isBefore_iff, isBefore_iff, moved_lt_moved_iff]

theorem earlier_moved (p q : Position) :
    (p.moved lines).earlier (q.moved lines) = (p.earlier q).moved lines := by
  rw [earlier, earlier, isBefore_moved, apply_ite (moved lines)]

theorem later_moved (p q : Position) :
    (p.moved lines).later (q.moved lines) = (p.later q).moved lines := by
  rw [later, later, isBefore_moved, apply_ite (moved lines)]

theorem advance_moved (p : Position) (c : Char) :
    (p.moved lines).advance c = (p.advance c).moved lines := by
  unfold advance
  split
  · simp only [moved, Nat.add_right_comm]
  · rfl

theorem after_moved (p : Position) (cs : List Char) :
    (p.moved lines).after cs = (p.after cs).moved lines := by
  induction cs generalizing p with
  | nil => rfl
  | cons c cs ih =>
      change ((p.moved lines).advance c).after cs = _
      rw [advance_moved, ih]
      rfl

end Position

theorem Span.cover_moved (a b : Span) :
    (a.moved lines).cover (b.moved lines) = (a.cover b).moved lines := by
  rw [cover, moved, moved, Position.earlier_moved, Position.later_moved]
  rfl

namespace Token

theorem kind_moved (token : Token) : (token.moved lines).kind = token.kind := rfl

theorem literal_moved (token : Token) : (token.moved lines).literal = token.literal := rfl

theorem span_moved (token : Token) : (token.moved lines).span = token.span.moved lines := rfl

theorem ofLexeme_moved (lexeme : Lexeme) (start : Position) :
    ofLexeme lexeme (start.moved lines) = (ofLexeme lexeme start).moved lines := by
  simp only [ofLexeme, moved, Position.after_moved, Position.line_moved, Position.column_moved,
    Nat.add_right_cancel_iff]

end Token

theorem Node.span_moved (node : Node) : (node.moved lines).span = node.span.moved lines := by
  cases node <;> rfl

theorem Token.moved_zero (token : Token) : token.moved 0 = token := rfl

mutual

-- No line further down is the same place.
theorem Node.moved_zero : ∀ node : Node, node.moved 0 = node
  | .assign _ value _ => by
    rw [moved, value.moved_zero]
    rfl
  | .binary _ left right _ => by
    rw [moved, left.moved_zero, right.moved_zero]
    rfl
  | .call _ args _ => by
    rw [moved, movedAll_zero args]
    rfl
  | .name _ _ | .number _ _ | .text _ _ => rfl

theorem Node.movedAll_zero : ∀ nodes : List Node, movedAll 0 nodes = nodes
  | [] => rfl
  | node :: rest => by rw [movedAll, node.moved_zero, movedAll_zero rest]

end

end CandleScript
