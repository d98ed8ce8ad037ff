import CandleScript.Proofs.Script.Spelling

namespace CandleScript

namespace Parse

-- A property of trees that passes from the tokens with the property `T` to
-- everything that is read from them.
structure Closed (T : Token → Prop) (P : Node → Prop) : Prop where
  number : ∀ {token value}, T token → token.kind = .number →
    Number.read token.literal.toList = .ok value → ∀ span, P (.number value span)
  zero : ∀ span, P (.number 0.0 span)
  text : ∀ literal span, P (.text literal span)
  name : ∀ name span, P (.name name span)
  binary : ∀ {left right}, P left → P right → ∀ op span, P (.binary op left right span)
  call : ∀ {args}, (∀ arg ∈ args, P arg) → ∀ callee span, P (.call callee args span)

-- A statement is an expression or the assignment of one.
inductive OfStatement (P : Node → Prop) : Node → Prop where
  | bare {node : Node} : P node → OfStatement P node
  | assign {value : Node} (name : String) (span : Span) :
    P value → OfStatement P (.assign name value span)

end Parse

open Parse (Closed OfStatement)

variable {T : Token → Prop} {P : Node → Prop}

-- Words that tokens with the property `T` say.
def Word.Said (T : Token → Prop) (word : Word) : Prop := ∃ token, T token ∧ token.word? = some word

mutual

theorem Spells.keeps (hclosed : Closed T P) {words : List Word} {node : Node}
    (hwords : ∀ word ∈ words, word.Said T) : Spells words node → P node
  | .name _ _ => hclosed.name _ _
  | .number value span => by
    obtain ⟨token, htoken, hword⟩ := hwords _ (List.mem_singleton_self _)
    obtain ⟨hkind, hread⟩ := Token.word?_eq_number_iff.mp hword
    exact hclosed.number htoken hkind hread span
  | .text _ _ => hclosed.text _ _
  | .group h => h.keeps hclosed fun word hword => hwords word (by simp [hword])
  | .negated _ _ h =>
    hclosed.binary (hclosed.zero _) (h.keeps hclosed fun word hword => hwords word (by simp [hword]))
      _ _
  | .binary _ _ hleft hright =>
    hclosed.binary (hleft.keeps hclosed fun word hword => hwords word (by simp [hword]))
      (hright.keeps hclosed fun word hword => hwords word (by simp [hword])) _ _
  | .bareCall _ _ => hclosed.call (List.forall_mem_nil _) _ _
  | .call _ _ h =>
    hclosed.call (h.keeps hclosed fun word hword => hwords word (by simp [hword])) _ _

theorem SpellsAll.keeps (hclosed : Closed T P) {words : List Word} {args : List Node}
    (hwords : ∀ word ∈ words, word.Said T) : SpellsAll words args → ∀ arg ∈ args, P arg
  | .one h => List.forall_mem_singleton.mpr (h.keeps hclosed hwords)
  | .more hfirst hlater => List.forall_mem_cons.mpr
    ⟨hfirst.keeps hclosed fun word hword => hwords word (by simp [hword]),
      hlater.keeps hclosed fun word hword => hwords word (by simp [hword])⟩

end

theorem SpellsScript.keeps (hclosed : Closed T P) {words : List Word} {script : Script}
    (h : SpellsScript words script) (hwords : ∀ word ∈ words, word.Said T) :
    ∀ node ∈ script, OfStatement P node := by
  induction h with
  | nil => exact List.forall_mem_nil _
  | @cons words later node script hnode _ _ ih =>
      obtain ⟨hfirst, hrest⟩ := List.forall_mem_append.mp hwords
      refine List.forall_mem_cons.mpr ⟨?_, ih hrest⟩
      cases hnode with
      | bare h => exact .bare (h.keeps hclosed hfirst)
      | assign name span h =>
          exact .assign name span (h.keeps hclosed fun word hword => hfirst word (by simp [hword]))

-- Every statement of a script that is read from tokens with the property `T`
-- has a property that is closed under reading.
theorem parse_keeps (hclosed : Closed T P) {tokens : List Token}
    (htokens : ∀ token ∈ tokens, T token) {script : Script} (h : parse tokens = .ok script) :
    ∀ node ∈ script, OfStatement P node := by
  obtain ⟨words, hsay, hspells⟩ := spells_of_parse h
  apply hspells.keeps hclosed
  intro word hword
  have hsaid : some word ∈ (Token.beforeEnd tokens).map Token.word? :=
    hsay ▸ List.mem_map_of_mem hword
  obtain ⟨token, htoken, hsays⟩ := List.mem_map.mp hsaid
  exact ⟨token, htokens token ((List.takeWhile_sublist _).subset htoken), hsays⟩

end CandleScript
