import CandleScript.Proofs.Script.Nesting
import CandleScript.Proofs.Script.Yield

namespace CandleScript

namespace Word

-- Wherever such words are cut off, no bracket is closed that is not opened.
def Nested (words : List Word) : Prop := ∀ k,
  (words.take k).count .closeParen ≤ (words.take k).count .openParen

theorem nested_nil : Nested [] := by simp [Nested]

theorem Nested.append {words later : List Word} (h : Nested words) (hlater : Nested later) :
    Nested (words ++ later) := by
  intro k
  have hfront := h k
  have hback := hlater (k - words.length)
  rw [List.take_append, List.count_append, List.count_append]
  omega

theorem Nested.cons {word : Word} {words : List Word} (hword : word ≠ .closeParen)
    (h : Nested words) : Nested (word :: words) := by
  intro k
  cases k with
  | zero => simp
  | succ k =>
      have hlater := h k
      rw [List.take_succ_cons, List.count_cons_of_ne hword]
      exact Nat.le_trans hlater (List.Sublist.count_le _ (List.sublist_cons_self _ _))

theorem Nested.bracketed {words : List Word} (h : Nested words) :
    Nested (.openParen :: words ++ [.closeParen]) := by
  intro k
  cases k with
  | zero => simp
  | succ k =>
      have hinner := h k
      have hlast : (([.closeParen] : List Word).take (k - words.length)).count .closeParen ≤ 1 :=
        Nat.le_trans List.count_le_length (List.length_take_le' _ _)
      simp only [List.cons_append, List.take_succ_cons, List.take_append, List.count_cons,
        List.count_append]
      simp
      omega

end Word

open Word (Nested nested_nil)

mutual

theorem Spells.nested {words : List Word} {node : Node} : Spells words node → Nested words
  | .name _ _ | .number _ _ | .text _ _ => nested_nil.cons (by simp)
  | .group h => h.nested.bracketed
  | .negated _ _ h => h.nested.cons (by simp)
  | .binary _ _ hleft hright => hleft.nested.append (hright.nested.cons (by simp))
  | .bareCall _ _ => nested_nil.bracketed.cons (by simp)
  | .call _ _ h => h.nested.bracketed.cons (by simp)

theorem SpellsAll.nested {words : List Word} {args : List Node} :
    SpellsAll words args → Nested words
  | .one h => h.nested
  | .more hfirst hlater => hfirst.nested.append (hlater.nested.cons (by simp))

end

mutual

theorem Spells.balanced {words : List Word} {node : Node} :
    Spells words node → words.count .openParen = words.count .closeParen
  | .name _ _ | .number _ _ | .text _ _ | .bareCall _ _ => by simp
  | .group h | .call _ _ h => by simp [h.balanced]
  | .negated _ _ h => by simp [h.balanced]
  | .binary _ _ hleft hright => by simp [hleft.balanced, hright.balanced]

theorem SpellsAll.balanced {words : List Word} {args : List Node} :
    SpellsAll words args → words.count .openParen = words.count .closeParen
  | .one h => h.balanced
  | .more hfirst hlater => by simp [hfirst.balanced, hlater.balanced]

end

-- What spells an expression in front of more words has no more words of the
-- tree than all of them.
theorem Spells.length_words_le {words more : List Word} {inner outer : Node}
    (h : Spells words inner) (houter : Spells (words ++ more) outer) :
    inner.words.length ≤ outer.words.length := by
  have hturns := h.turns none [] more ⟨fun _ => rfl, fun _ => rfl⟩
  have hall := houter.turns none [] [] ⟨fun _ => rfl, fun _ => rfl⟩
  rw [List.append_nil, hturns, Word.plainFrom, List.append_nil] at hall
  rw [← hall, List.length_append]
  exact Nat.le_add_right _ _

-- Where a bracket stands in front of a binary expression, either all of it is
-- in brackets or only its left operand, and the words tell which.
theorem Spells.left_ne_group {before inner more rest : List Word} {op : Operator}
    {left right : Node} {span : Span} (hleft : Spells before left)
    (hinner : Spells inner (.binary op left right span)) :
    before ++ .op op :: more ≠ .openParen :: inner ++ [.closeParen] ++ rest := by
  intro hsame
  have hfront : before <+: before ++ .op op :: more := List.prefix_append _ _
  have hgroup : Word.openParen :: inner ++ [Word.closeParen] <+: before ++ .op op :: more :=
    hsame ▸ List.prefix_append _ _
  rcases Nat.lt_or_ge before.length (Word.openParen :: inner ++ [Word.closeParen]).length with
    hlt | hge
  · -- The operand would end inside the bracket that it begins with.
    have hprefix := List.prefix_of_prefix_length_le hfront hgroup (Nat.le_of_lt hlt)
    have hpos := List.length_pos_iff.mpr hleft.ne_nil
    obtain ⟨k, hk⟩ : ∃ k, before.length = k + 1 := ⟨before.length - 1, by omega⟩
    have htake := List.prefix_iff_eq_take.mp hprefix
    have hshort : k ≤ inner.length := by
      simp at hlt
      omega
    rw [hk, List.cons_append, List.take_succ_cons, List.take_append_of_le_length hshort] at htake
    have hbalanced := hleft.balanced
    have hnested := hinner.nested k
    rw [htake] at hbalanced
    simp at hbalanced
    omega
  · -- The operand would have all words of the whole tree.
    obtain ⟨later, hlater⟩ := List.prefix_of_prefix_length_le hgroup hfront hge
    have hlength := hinner.group.length_words_le (hlater ▸ hleft)
    rw [Node.words, List.length_append, List.length_cons] at hlength
    omega

-- A number begins with no sign.
theorem Spells.ne_sign {words : List Word} {value : Float} {span : Span} {rest : List Word}
    (h : Spells words (.number value span)) (later : List Word) :
    words ++ rest ≠ .op .sub :: later := by
  cases h with
  | number _ _ => simp
  | group _ => simp

-- That the words of an expression and what is open at them are told by the tree
-- and the words that it stands in front of.
def Told (opened : Nat) (words : List Word) (node : Node) (counts : List Nat) : Prop :=
  ∀ ⦃words' rest rest' : List Word⦄ ⦃counts' : List Nat⦄, Opens opened words' node counts' →
    words ++ rest = words' ++ rest' → words = words' ∧ counts = counts'

-- The same of arguments, which stand in front of a closing bracket.
def ToldAll (opened : Nat) (words : List Word) (args : List Node) (counts : List Nat) : Prop :=
  ∀ ⦃words' rest rest' : List Word⦄ ⦃counts' : List Nat⦄, OpensAll opened words' args counts' →
    words ++ .closeParen :: rest = words' ++ .closeParen :: rest' →
      words = words' ∧ counts = counts'

section

variable {opened : Nat} {words : List Word} {node : Node} {counts : List Nat}

theorem Told.group (hspells : Spells words node) (h : Told (opened + 1) words node counts) :
    Told opened (.openParen :: words ++ [.closeParen]) node
      ((opened + 1) :: counts ++ [opened + 1]) := by
  intro words' rest rest' counts' h' hsame
  cases h' with
  | group hinner =>
      simp only [List.cons_append, List.append_assoc, List.cons.injEq, true_and] at hsame
      obtain ⟨rfl, rfl⟩ := h hinner hsame
      exact ⟨rfl, rfl⟩
  | @binary _ before _ _ _ _ _ op span hleft hright =>
      rw [List.append_assoc before] at hsame
      exact absurd hsame.symm (hleft.spells.left_ne_group hspells)
  | _ => cases hsame

theorem Told.negated (h : Told (opened + 1) words node counts) (place span : Span) :
    Told opened (.op .sub :: words) (.binary .sub (.number 0.0 place) node span)
      ((opened + 1) :: counts) := by
  intro words' rest rest' counts' h' hsame
  cases h' with
  | negated _ _ hoperand =>
      obtain ⟨rfl, rfl⟩ := h hoperand (List.cons.inj hsame).2
      exact ⟨rfl, rfl⟩
  | binary op span hleft _ =>
      rw [List.append_assoc] at hsame
      exact absurd hsame.symm (hleft.spells.ne_sign _)
  | group _ => cases hsame

theorem Told.binary {later : List Word} {right : Node} {counts' : List Nat}
    (hspells : Spells words node) (h : Told opened words node counts)
    (hright : Told (opened + 1) later right counts') (op : Operator) (span : Span) :
    Told opened (words ++ .op op :: later) (.binary op node right span)
      (counts ++ opened :: counts') := by
  intro words' rest rest' counts' h' hsame
  rw [List.append_assoc] at hsame
  cases h' with
  | binary _ _ hleft' hright' =>
      rw [List.append_assoc] at hsame
      obtain ⟨rfl, rfl⟩ := h hleft' hsame
      obtain ⟨rfl, rfl⟩ := hright hright' (List.cons.inj (List.append_cancel_left hsame)).2
      exact ⟨rfl, rfl⟩
  | negated _ _ _ => exact absurd hsame (hspells.ne_sign _)
  | group hinner => exact absurd hsame (hspells.left_ne_group hinner.spells)

theorem Told.bareCall (callee : String) (span : Span) :
    Told opened [.name callee, .openParen, .closeParen] (.call callee [] span)
      [opened, opened, opened] := by
  intro words' rest rest' counts' h' hsame
  cases h' with
  | bareCall _ _ => exact ⟨rfl, rfl⟩
  | call _ _ hargs => cases hargs
  | group _ => cases hsame

theorem ToldAll.call {args : List Node} (hne : args ≠ [])
    (h : ToldAll (opened + 1) words args counts) (callee : String) (span : Span) :
    Told opened (.name callee :: .openParen :: words ++ [.closeParen]) (.call callee args span)
      (opened :: (opened + 1) :: counts ++ [opened + 1]) := by
  intro words' rest rest' counts' h' hsame
  cases h' with
  | bareCall _ _ => exact absurd rfl hne
  | call _ _ hargs =>
      simp only [List.cons_append, List.append_assoc, List.cons.injEq, true_and] at hsame
      obtain ⟨rfl, rfl⟩ := h hargs hsame
      exact ⟨rfl, rfl⟩
  | group _ => cases hsame

theorem ToldAll.one (h : Told opened words node counts) : ToldAll opened words [node] counts := by
  intro words' rest rest' counts' h' hsame
  cases h' with
  | one hnode => exact h hnode hsame
  | more _ hlater => cases hlater

theorem ToldAll.more {later : List Word} {args : List Node} {counts' : List Nat}
    (hne : args ≠ []) (h : Told opened words node counts)
    (hlater : ToldAll opened later args counts') :
    ToldAll opened (words ++ .comma :: later) (node :: args) (counts ++ opened :: counts') := by
  intro words' rest rest' counts' h' hsame
  cases h' with
  | one _ => exact absurd rfl hne
  | more hnode hargs =>
      rw [List.append_assoc, List.append_assoc] at hsame
      obtain ⟨rfl, rfl⟩ := h hnode hsame
      obtain ⟨rfl, rfl⟩ := hlater hargs (List.cons.inj (List.append_cancel_left hsame)).2
      exact ⟨rfl, rfl⟩

end

theorem OpensAll.ne_nil {opened : Nat} {words : List Word} {args : List Node} {counts : List Nat}
    (h : OpensAll opened words args counts) : args ≠ [] := by
  cases h <;> exact List.cons_ne_nil _ _

mutual

-- Induction on how the words spell the tree. The tree tells each construct but
-- groups, and a group is told by its brackets.
theorem Opens.told {opened : Nat} {words : List Word} {node : Node} {counts : List Nat} :
    Opens opened words node counts → Told opened words node counts
  | .name _ _ | .number _ _ | .text _ _ => by
    intro words' rest rest' counts' h' hsame
    cases h' with
    | group _ => cases hsame
    | _ => exact ⟨rfl, rfl⟩
  | .group h => h.told.group h.spells
  | .negated place span h => h.told.negated place span
  | .binary op span hleft hright => hleft.told.binary hleft.spells hright.told op span
  | .bareCall callee span => .bareCall callee span
  | .call callee span h => h.told.call h.ne_nil callee span

theorem OpensAll.told {opened : Nat} {words : List Word} {args : List Node} {counts : List Nat} :
    OpensAll opened words args counts → ToldAll opened words args counts
  | .one h => ToldAll.one h.told
  | .more h hlater => ToldAll.more hlater.ne_nil h.told hlater.told

end

-- No expression is an assignment.
theorem Spells.ne_assign {words : List Word} {node : Node} : Spells words node →
    ∀ name value span, node ≠ .assign name value span
  | .group h => h.ne_assign
  | .name _ _ | .number _ _ | .text _ _ | .negated _ _ _ | .binary _ _ _ _ | .bareCall _ _
  | .call _ _ _ => nofun

theorem OpensStatement.unique {words words' rest rest' : List Word} {node : Node}
    {counts counts' : List Nat} (h : OpensStatement words node counts)
    (h' : OpensStatement words' node counts') (hsame : words ++ rest = words' ++ rest') :
    words = words' ∧ counts = counts' := by
  cases h with
  | bare h =>
      cases h' with
      | bare h' => exact h.told h' hsame
      | assign _ _ _ => exact absurd rfl (h.spells.ne_assign _ _ _)
  | assign name span h =>
      cases h' with
      | bare h' => exact absurd rfl (h'.spells.ne_assign _ _ _)
      | assign _ _ h' =>
          obtain ⟨rfl, rfl⟩ := h.told h' (List.cons.inj (List.cons.inj hsame).2).2
          exact ⟨rfl, rfl⟩

-- What is open at the words of a script is told by the words and the script.
theorem OpensScript.unique {words : List Word} {script : Script} {counts counts' : List Nat}
    (h : OpensScript words script counts) (h' : OpensScript words script counts') :
    counts = counts' := by
  induction h generalizing counts' with
  | nil =>
      generalize hwords : ([] : List Word) = words at h'
      cases h' with
      | nil => rfl
  | @cons words later node script counts _ hstatement _ ih =>
      generalize hwords : words ++ later = all at h'
      cases h' with
      | cons hstatement' hlater' =>
          obtain ⟨rfl, rfl⟩ := hstatement.unique hstatement' hwords
          cases List.append_cancel_left hwords
          rw [ih hlater']

mutual

theorem Opens.length_eq {opened : Nat} {words : List Word} {node : Node} {counts : List Nat} :
    Opens opened words node counts → counts.length = words.length
  | .name _ _ | .number _ _ | .text _ _ | .bareCall _ _ => rfl
  | .group h | .negated _ _ h | .call _ _ h => by simp [h.length_eq]
  | .binary _ _ hleft hright => by simp [hleft.length_eq, hright.length_eq]

theorem OpensAll.length_eq {opened : Nat} {words : List Word} {args : List Node}
    {counts : List Nat} : OpensAll opened words args counts → counts.length = words.length
  | .one h => h.length_eq
  | .more h hlater => by simp [h.length_eq, hlater.length_eq]

end

theorem OpensStatement.length_eq {words : List Word} {node : Node} {counts : List Nat}
    (h : OpensStatement words node counts) : counts.length = words.length := by
  cases h with
  | bare h => exact h.length_eq
  | assign _ _ h => simp [h.length_eq]

-- There is a number for each word.
theorem OpensScript.length_eq {words : List Word} {script : Script} {counts : List Nat}
    (h : OpensScript words script counts) : counts.length = words.length := by
  induction h with
  | nil => rfl
  | cons hstatement _ ih => rw [List.length_append, List.length_append, hstatement.length_eq, ih]

end CandleScript
