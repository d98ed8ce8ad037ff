import CandleScript.Proofs.Script.Spelling

namespace CandleScript

namespace Node

mutual

-- The words of a tree in their order: no brackets but those of calls, and no
-- signs but those between two operands.
def words : Node → List Word
  | .assign target value _ => .name target :: .assign :: value.words
  | .binary op left right _ => left.words ++ .op op :: right.words
  | .call callee args _ => .name callee :: .openParen :: wordsAll args ++ [.closeParen]
  | .name literal _ => [.name literal]
  | .number value _ => [.number value]
  | .text value _ => [.text value]

def wordsAll : List Node → List Word
  | [] => []
  | [node] => node.words
  | node :: next :: rest => node.words ++ .comma :: wordsAll (next :: rest)

end

end Node

def Script.words (script : Script) : List Word := script.flatMap Node.words

namespace Word

-- What stands right before a word, if anything does.
abbrev Before := Option Word

-- Where no operator can stand: at the front, and right after an operator, an
-- opening bracket, a comma or an assignment sign.
def Before.awaitsOperand (before : Before) : Bool :=
  match before with
  | none => true
  | some word => !word.closes

def Before.isName : Before → Bool
  | some (.name _) => true
  | _ => false

-- What is kept of a word: nothing of the two brackets of a group, and of a
-- sign the subtraction from zero that it stands for. `opened` tells of every
-- open bracket, the innermost first, whether it is the bracket of a call.
def kept (before : Before) (opened : List Bool) : Word → List Word
  | .openParen => if before.isName then [.openParen] else []
  | .closeParen => if opened.head? = some false then [] else [.closeParen]
  | .op .sub => if before.awaitsOperand then [.number 0.0, .op .sub] else [.op .sub]
  | word => [word]

def openedAfter (before : Before) (opened : List Bool) : Word → List Bool
  | .openParen => before.isName :: opened
  | .closeParen => opened.tail
  | _ => opened

def plainFrom (before : Before) (opened : List Bool) : List Word → List Word
  | [] => []
  | word :: rest =>
    word.kept before opened ++ plainFrom (some word) (word.openedAfter before opened) rest

-- Words without the brackets of groups and with signs written out.
def plain (words : List Word) : List Word := plainFrom none [] words

-- A sign or the bracket of a group may begin only where it is seen as one.
def Before.Admits (before : Before) (words : List Word) : Prop :=
  (words.head? = some (.op .sub) → before.awaitsOperand = true) ∧
    (words.head? = some .openParen → before.isName = false)

theorem Before.admits_of_not_closes {word : Word} (h : word.closes = false) (words : List Word) :
    Before.Admits (some word) words := by
  constructor
  · intro _
    simp [awaitsOperand, h]
  · intro _
    cases word <;> first | rfl | cases h

-- Words that come out as `out` wherever they may begin, and that leave no
-- bracket open.
def Turns (words out : List Word) : Prop :=
  ∀ (before : Before) (opened : List Bool) (rest : List Word), before.Admits words →
    plainFrom before opened (words ++ rest) = out ++ plainFrom words.getLast? opened rest

theorem turns_singleton {word : Word} (hkept : ∀ before opened, word.kept before opened = [word])
    (hopened : ∀ before opened, word.openedAfter before opened = opened) :
    Turns [word] [word] := by
  intro before opened rest _
  rw [List.singleton_append, plainFrom, hkept, hopened]
  rfl

theorem Before.Admits.append {before : Before} {words : List Word} (hwords : words ≠ [])
    {later : List Word} (h : before.Admits (words ++ later)) : before.Admits words := by
  cases words with
  | nil => contradiction
  | cons word words => exact h

-- A word that divides two operands is seen as such, since the first one ends
-- right before it.
theorem Turns.divide {words later out out' : List Word} (h : Turns words out)
    (hlater : Turns later out') {last : Word} (hlast : words.getLast? = some last)
    (hne : later ≠ []) (word : Word) (hword : word.closes = false)
    (hkept : ∀ opened, word.kept (some last) opened = [word])
    (hopened : ∀ opened, word.openedAfter (some last) opened = opened) :
    Turns (words ++ word :: later) (out ++ word :: out') := by
  intro before opened rest hadmits
  have hwords : words ≠ [] := by
    rintro rfl
    cases hlast
  have hend : (words ++ word :: later).getLast? = later.getLast? := by
    rw [List.getLast?_append, List.getLast?_cons, List.getLast?_eq_some_getLast hne]
    rfl
  calc plainFrom before opened (words ++ word :: later ++ rest)
      = out ++ plainFrom (some last) opened (word :: (later ++ rest)) := by
        rw [List.append_assoc, h before opened _ (hadmits.append hwords), hlast]
        rfl
    _ = out ++ word :: plainFrom (some word) opened (later ++ rest) := by
        rw [plainFrom, hkept, hopened]
        rfl
    _ = out ++ word :: (out' ++ plainFrom later.getLast? opened rest) := by
        rw [hlater _ _ _ (Before.admits_of_not_closes hword later)]
    _ = out ++ word :: out' ++ plainFrom (words ++ word :: later).getLast? opened rest := by
        rw [hend, List.append_assoc, List.cons_append]

theorem kept_op_of_closes {last : Word} (h : last.closes = true) (op : Operator)
    (opened : List Bool) : (Word.op op).kept (some last) opened = [.op op] := by
  cases op <;> simp [kept, Before.awaitsOperand, h]

theorem Turns.group {words out : List Word} (h : Turns words out) :
    Turns (.openParen :: words ++ [.closeParen]) out := by
  intro before opened rest hadmits
  have hgroup := hadmits.2 rfl
  have hinner := h (some .openParen) (false :: opened) (.closeParen :: rest)
    (Before.admits_of_not_closes rfl words)
  rw [List.getLast?_concat]
  simp [plainFrom, kept, openedAfter, hgroup, hinner]

theorem Turns.call {words out : List Word} (h : Turns words out) (callee : String) :
    Turns (.name callee :: .openParen :: words ++ [.closeParen])
      (.name callee :: .openParen :: out ++ [.closeParen]) := by
  intro before opened rest _
  have hinner := h (some .openParen) (true :: opened) (.closeParen :: rest)
    (Before.admits_of_not_closes rfl words)
  rw [List.getLast?_concat]
  simp [plainFrom, kept, openedAfter, Before.isName, hinner]

theorem Turns.negated {words out : List Word} (h : Turns words out) (hwords : words ≠ []) :
    Turns (.op .sub :: words) (.number 0.0 :: .op .sub :: out) := by
  intro before opened rest hadmits
  have hsign := hadmits.1 rfl
  have hinner := h (some (.op .sub)) opened rest (Before.admits_of_not_closes rfl words)
  have hend : (Word.op .sub :: words).getLast? = words.getLast? := by
    rw [List.getLast?_cons, List.getLast?_eq_some_getLast hwords]
    rfl
  rw [hend, List.cons_append, plainFrom]
  simp only [kept, openedAfter, hsign, if_true, hinner, List.cons_append, List.nil_append]

end Word

open Word (Turns)

mutual

-- What spells a tree comes out as the words of the tree.
theorem Spells.turns {words : List Word} {node : Node} : Spells words node → Turns words node.words
  | .name literal _ => Word.turns_singleton (fun _ _ => rfl) (fun _ _ => rfl)
  | .number value _ => Word.turns_singleton (fun _ _ => rfl) (fun _ _ => rfl)
  | .text value _ => Word.turns_singleton (fun _ _ => rfl) (fun _ _ => rfl)
  | .group h => h.turns.group
  | .negated _ _ h => h.turns.negated h.ne_nil
  | .binary op _ hleft hright => by
    obtain ⟨last, hlast, hcloses⟩ := hleft.exists_getLast?
    exact hleft.turns.divide hright.turns hlast hright.ne_nil (.op op) rfl
      (Word.kept_op_of_closes hcloses op) (fun _ => rfl)
  | .bareCall callee _ => by
    intro before opened rest _
    simp [Node.words, Node.wordsAll, Word.plainFrom, Word.kept, Word.openedAfter, Word.Before.isName]
  | .call callee _ h => h.turns.call callee

theorem SpellsAll.turns {words : List Word} {args : List Node} :
    SpellsAll words args → Turns words (Node.wordsAll args)
  | .one h => h.turns
  | .more hfirst hlater => by
    obtain ⟨last, hlast, hcloses⟩ := hfirst.exists_getLast?
    have hturns := hfirst.turns.divide hlater.turns hlast hlater.ne_nil .comma rfl (fun _ => rfl)
      (fun _ => rfl)
    cases hlater <;> exact hturns

end

theorem SpellsStatement.turns {words : List Word} {node : Node} (h : SpellsStatement words node) :
    Turns words node.words := by
  cases h with
  | bare h => exact h.turns
  | @assign words value name span h =>
      intro before opened rest _
      have hinner := h.turns (some .assign) opened rest (Word.Before.admits_of_not_closes rfl words)
      have hend : (Word.name name :: .assign :: words).getLast? = words.getLast? := by
        rw [List.getLast?_cons, List.getLast?_cons, List.getLast?_eq_some_getLast h.ne_nil]
        rfl
      simp [hend, Node.words, Word.plainFrom, Word.kept, Word.openedAfter, hinner]

theorem SpellsScript.plainFrom_eq {words : List Word} {script : Script}
    (h : SpellsScript words script) (before : Word.Before) (hadmits : before.Admits words) :
    Word.plainFrom before [] words = script.words := by
  induction h generalizing before with
  | nil => rfl
  | @cons words later node script hnode hapart _ ih =>
      have hlater : Word.Before.Admits words.getLast? later := by
        constructor
        · intro hsign
          exact absurd hsign (hapart.1 .sub)
        · intro hopen
          cases hlast : words.getLast? with
          | none => rfl
          | some last =>
              cases last with
              | name literal => exact absurd hopen (hapart.2 literal hlast)
              | _ => rfl
      rw [hnode.turns before [] later (hadmits.append hnode.ne_nil), ih _ hlater]
      rfl

-- Nothing is lost, doubled or moved. What the tokens in front of the first end
-- token say, without the brackets of groups and with signs written out as
-- subtractions from zero, are the words of the script in their order.
theorem plain_words_of_parse {tokens : List Token} {script : Script}
    (h : parse tokens = .ok script) :
    ∃ words, Token.Say (Token.beforeEnd tokens) words ∧ Word.plain words = script.words := by
  obtain ⟨words, hsay, hspells⟩ := spells_of_parse h
  refine ⟨words, hsay, hspells.plainFrom_eq none ?_⟩
  exact ⟨fun _ => rfl, fun _ => rfl⟩

-- `y = -(a - 2) * f(b)`, and what stands behind the end.
def signTokens : List Token :=
  [(.name, "y"), (.assign, "="), (.op .sub, "-"), (.openParen, "("), (.name, "a"), (.op .sub, "-"),
    (.number, "2"), (.closeParen, ")"), (.op .mul, "*"), (.name, "f"), (.openParen, "("),
    (.name, "b"), (.closeParen, ")"), (.ending, ""), (.comma, ",")].map
      fun (kind, literal) => ⟨kind, literal, .start, 1⟩

theorem plain_words_of_parse_sign :
    ∃ script, parse signTokens = .ok script ∧
      script.words = [.name "y", .assign, .number 0.0, .op .sub, .name "a", .op .sub, .number 2.0,
        .op .mul, .name "f", .openParen, .name "b", .closeParen] := by
  obtain ⟨script, hscript⟩ : ∃ script, parse signTokens = .ok script := ⟨_, rfl⟩
  obtain ⟨words, hsay, hplain⟩ := plain_words_of_parse hscript
  have hwords : Token.Say (Token.beforeEnd signTokens)
      [.name "y", .assign, .op .sub, .openParen, .name "a", .op .sub, .number 2.0, .closeParen,
        .op .mul, .name "f", .openParen, .name "b", .closeParen] := rfl
  refine ⟨script, hscript, ?_⟩
  rw [← hplain, hsay.unique hwords]
  rfl

end CandleScript
