import CandleScript.Proofs.Script.Word
import CandleScript.Script.Node

namespace CandleScript

-- An expression by itself, without the places of its parts.
inductive Expression where
  | name (literal : String)
  | number (value : Float)
  | text (value : String)
  | binary (op : Operator) (left right : Expression)
  | call (callee : String) (args : List Expression)

namespace Node

mutual

-- The expression that a tree stands for. An assignment is none.
def expression? : Node → Option Expression
  | .assign _ _ _ => none
  | .binary op left right _ =>
    match left.expression?, right.expression? with
    | some a, some b => some (.binary op a b)
    | _, _ => none
  | .call callee args _ => (expressions? args).map (.call callee)
  | .name literal _ => some (.name literal)
  | .number value _ => some (.number value)
  | .text value _ => some (.text value)

def expressions? : List Node → Option (List Expression)
  | [] => some []
  | node :: rest =>
    match node.expression?, expressions? rest with
    | some e, some es => some (e :: es)
    | _, _ => none

end

end Node

-- How brackets are put around words.
def Word.inBrackets (words : List Word) : List Word := .openParen :: words ++ [.closeParen]

namespace Expression

-- How tightly an expression holds together: as its operator binds, or more
-- tightly than every operator.
def tightness : Expression → Nat
  | binary op _ _ => op.precedence
  | _ => 6

-- An operand whose place asks for the tightness `least` stands in brackets
-- only if it has less.
def bracketed (least tightness : Nat) (words : List Word) : List Word :=
  if tightness < least then Word.inBrackets words else words

def deepened (least tightness nesting : Nat) : Nat :=
  if tightness < least then nesting + 1 else nesting

mutual

-- An expression written with the fewest brackets. A left operand may bind as
-- its operator does, a right operand has to bind tighter.
def words : Expression → List Word
  | .binary op left right =>
    bracketed op.precedence left.tightness left.words ++
      .op op :: bracketed (op.precedence + 1) right.tightness right.words
  | .call callee args => .name callee :: .openParen :: wordsAll args ++ [.closeParen]
  | .name literal => [.name literal]
  | .number value => [.number value]
  | .text value => [.text value]

def wordsAll : List Expression → List Word
  | [] => []
  | [e] => e.words
  | e :: next :: rest => e.words ++ .comma :: wordsAll (next :: rest)

end

mutual

-- The most nestings that are open at once in the written expression: one for
-- each bracket, for each call with arguments and for each operator that waits
-- for its right operand.
def nesting : Expression → Nat
  | .binary op left right =>
    max (deepened op.precedence left.tightness left.nesting)
      (deepened (op.precedence + 1) right.tightness right.nesting + 1)
  | .call _ args => if args.isEmpty then 0 else nestingAll args + 1
  | _ => 0

def nestingAll : List Expression → Nat
  | [] => 0
  | e :: rest => max e.nesting (nestingAll rest)

end

mutual

def height : Expression → Nat
  | .binary _ left right => max left.height right.height + 1
  | .call _ args => heightAll args + 1
  | _ => 1

def heightAll : List Expression → Nat
  | [] => 0
  | e :: rest => max e.height (heightAll rest)

end

end Expression

inductive Statement where
  | bare (value : Expression)
  | assign (target : String) (value : Expression)

namespace Statement

def value : Statement → Expression
  | bare value | assign _ value => value

def words : Statement → List Word
  | bare value => value.words
  | assign target value => .name target :: .assign :: value.words

-- A bracket at the beginning of a statement would make a call of the name at
-- the end of the statement before.
def Clear (before after : Statement) : Prop :=
  ∀ name, before.words.getLast? = some (.name name) → after.words.head? ≠ some .openParen

end Statement

def Node.statement? : Node → Option Statement
  | .assign target value _ => value.expression?.map (.assign target)
  | node => node.expression?.map .bare

-- Words that an expression begins with.
def Word.begins : Word → Bool
  | .name _ | .number _ | .text _ | .openParen => true
  | _ => false

def Word.Begun (words : List Word) : Prop :=
  ∃ word later, words = word :: later ∧ word.begins = true

theorem Word.Begun.ne_nil {words : List Word} (h : Begun words) : words ≠ [] := by
  obtain ⟨word, later, rfl, -⟩ := h
  exact List.cons_ne_nil word later

namespace Token

def Kind.begins : Kind → Bool
  | .name | .number | .text | .openParen | .ifWord | .elseWord => true
  | _ => false

theorem begins_of_word? {token : Token} {word : Word} (h : token.word? = some word)
    (hword : word.begins = true) : token.kind.begins = true := by
  cases hkind : token.kind <;> first | rfl | (rw [word?, hkind] at h; cases h <;> cases hword)

theorem Kind.ne_of_begins {kind other : Kind} (h : kind.begins = true)
    (hother : other.begins = false) : kind ≠ other := by
  rintro rfl
  cases h.symm.trans hother

theorem Say.exists_cons_of_begun {tokens : List Token} {words : List Word} (hsay : Say tokens words)
    (h : Word.Begun words) :
    ∃ first rest, tokens = first :: rest ∧ first.kind.begins = true := by
  obtain ⟨word, later, rfl, hword⟩ := h
  obtain ⟨first, rest, rfl, hfirst, -⟩ := say_cons_iff.mp hsay
  exact ⟨first, rest, rfl, begins_of_word? hfirst hword⟩

end Token

namespace Expression

theorem begun_bracketed {words : List Word} (h : Word.Begun words) (least tightness : Nat) :
    Word.Begun (bracketed least tightness words) := by
  rw [bracketed]
  split
  · exact ⟨.openParen, _, rfl, rfl⟩
  · exact h

theorem begun_words (e : Expression) : Word.Begun e.words := by
  match e with
  | .binary op left right =>
      obtain ⟨word, later, hleft, hword⟩ :=
        begun_bracketed left.begun_words op.precedence left.tightness
      exact ⟨word, _, by rw [words, hleft, List.cons_append], hword⟩
  | .call callee args => exact ⟨.name callee, _, by rw [words]; rfl, rfl⟩
  | .name literal => exact ⟨.name literal, [], by rw [words], rfl⟩
  | .number value => exact ⟨.number value, [], by rw [words], rfl⟩
  | .text value => exact ⟨.text value, [], by rw [words], rfl⟩

theorem begun_wordsAll {args : List Expression} (h : args ≠ []) : Word.Begun (wordsAll args) := by
  match args with
  | [] => exact absurd rfl h
  | [e] =>
      rw [wordsAll]
      exact e.begun_words
  | e :: next :: more =>
      obtain ⟨word, later, hwords, hword⟩ := e.begun_words
      exact ⟨word, _, by rw [wordsAll, hwords, List.cons_append], hword⟩

theorem assign_notMem_bracketed {words : List Word} (h : .assign ∉ words) (least tightness : Nat) :
    .assign ∉ bracketed least tightness words := by
  rw [bracketed]
  split
  · simpa [Word.inBrackets] using h
  · exact h

mutual

-- The assignment sign stands in no expression.
theorem assign_notMem_words : ∀ e : Expression, .assign ∉ e.words
  | .binary op left right => by
    have hleft := assign_notMem_bracketed left.assign_notMem_words op.precedence left.tightness
    have hright :=
      assign_notMem_bracketed right.assign_notMem_words (op.precedence + 1) right.tightness
    simp [words, hleft, hright]
  | .call callee args => by
    simp [words, assign_notMem_wordsAll args]
  | .name literal | .number value | .text value => by
    simp [words]

theorem assign_notMem_wordsAll : ∀ args : List Expression, .assign ∉ wordsAll args
  | [] => List.not_mem_nil
  | [e] => by
    rw [wordsAll]
    exact e.assign_notMem_words
  | e :: next :: rest => by
    have hlater := assign_notMem_wordsAll (next :: rest)
    simp [wordsAll, e.assign_notMem_words, hlater]

end

end Expression

theorem Statement.begun_words (s : Statement) : Word.Begun s.words := by
  cases s with
  | bare e => exact e.begun_words
  | assign target e => exact ⟨.name target, _, rfl, rfl⟩

end CandleScript
