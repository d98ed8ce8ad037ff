import CandleScript.Proofs.Script.Spelling
import CandleScript.Proofs.Script.Written
import Mathlib.Data.List.Basic

namespace CandleScript

namespace Parse

open Token (Say say_cons_iff say_singleton_iff say_append_iff word?_eq_sign_iff)
open Expression (bracketed deepened)

theorem Settled.mono {least least' : Nat} {rest : List Token} (h : Settled least rest)
    (hle : least ≤ least') : Settled least' rest := by
  intro op hop
  exact Nat.lt_of_lt_of_le (h op hop) hle

theorem noCall_cons {token : Token} (h : token.kind ≠ .openParen) (words : List Word)
    (rest : List Token) : NoCall words (token :: rest) := by
  intro name _ hnext
  exact h (Option.some.inj hnext)

theorem NoCall.of_append (before : List Word) {words : List Word} {rest : List Token}
    (h : NoCall (before ++ words) rest) (hwords : words ≠ []) : NoCall words rest := by
  intro name hname
  apply h name
  rw [List.getLast?_append_of_ne_nil before hwords, hname]

theorem climb_of_settled {inner : Inner} {least : Nat} {left : Parsed}
    (h : Settled least left.rest) (fuel : Nat) : climb inner least fuel left = .ok left := by
  cases fuel with
  | zero => rfl
  | succ fuel =>
      rw [climb]
      split
      · rfl
      · rename_i sign more hrest
        split
        · rename_i op hkind
          have hlow : op.precedence < least := by
            apply h
            rw [hrest]
            exact congrArg some hkind
          rw [if_pos hlow]
        · rfl

-- Reading the written expression arrives at its tree as a left operand, with
-- enough fuel for what follows.
def Arrives (e : Expression) (room least : Nat) (last : Position) (tokens rest : List Token) : Prop :=
  ∃ fuel node, rest.length ≤ fuel ∧ node.expression? = some e ∧
    expression (within last room) last least (tokens ++ rest) =
      climb (within last room) least fuel ⟨node, e.height, rest⟩

-- The same wherever the expression may stand: in a place that asks for no more
-- than its tightness, with room for its nestings, and in front of tokens that
-- do not go on with it.
def ReadsBack (e : Expression) : Prop :=
  ∀ (last : Position) (room least : Nat) (tokens rest : List Token), Say tokens e.words →
    least ≤ e.tightness → e.height ≤ maxNesting → e.nesting ≤ room →
    Settled (e.tightness + 1) rest → NoCall e.words rest → Arrives e room least last tokens rest

theorem arrives_of_operand {e : Expression} {last : Position} {room : Nat}
    {tokens rest : List Token} (node : Node) (hnode : node.expression? = some e)
    (h : operand (within last room) last (tokens ++ rest) = .ok ⟨node, e.height, rest⟩)
    (least : Nat) : Arrives e room least last tokens rest := by
  refine ⟨(tokens ++ rest).length, node, ?_, hnode, ?_⟩
  · rw [List.length_append]
    omega
  · rw [expression, h]
    rfl

-- Where no operator follows that binds as tightly as the place asks for, the
-- tree is the result.
theorem Arrives.expression_eq {e : Expression} {last : Position} {room least : Nat}
    {tokens rest : List Token} (h : Arrives e room least last tokens rest)
    (hsettled : Settled least rest) :
    ∃ node, node.expression? = some e ∧
      expression (within last room) last least (tokens ++ rest) = .ok ⟨node, e.height, rest⟩ := by
  obtain ⟨fuel, node, -, hnode, hread⟩ := h
  exact ⟨node, hnode, hread.trans (climb_of_settled hsettled fuel)⟩

theorem named_of_noCall {inner : Inner} {last : Position} {name : Token} {rest : List Token}
    (h : nextKind? rest ≠ some .openParen) :
    named inner last name rest = .ok ⟨.name name.literal name.span, 1, rest⟩ := by
  cases rest with
  | nil => rfl
  | cons opened more =>
      have hopened : opened.kind ≠ .openParen := fun hkind => h (congrArg some hkind)
      unfold named
      simp only [hopened, if_false]

theorem operand_of_isName {inner : Inner} {last : Position} {name : Token}
    (h : name.kind.isName = true) (rest : List Token) :
    operand inner last (name :: rest) = named inner last name rest := by
  rw [operand]
  cases hkind : name.kind <;> rw [hkind] at h <;> first | rfl | cases h

theorem readsBack_name (literal : String) : ReadsBack (.name literal) := by
  intro last room least tokens rest hsay _ _ _ _ hcall
  obtain ⟨token, rfl, hword⟩ := say_singleton_iff.mp hsay
  obtain ⟨hname, hliteral⟩ := Token.word?_eq_name_iff.mp hword
  refine arrives_of_operand (.name token.literal token.span) ?_ ?_ least
  · rw [Node.expression?, hliteral]
  · rw [List.singleton_append, operand_of_isName hname, named_of_noCall (hcall literal rfl)]
    rfl

theorem readsBack_number (value : Float) : ReadsBack (.number value) := by
  intro last room least tokens rest hsay _ _ _ _ _
  obtain ⟨token, rfl, hword⟩ := say_singleton_iff.mp hsay
  obtain ⟨hkind, hread⟩ := Token.word?_eq_number_iff.mp hword
  refine arrives_of_operand (.number value token.span) ?_ ?_ least
  · rw [Node.expression?]
  · rw [List.singleton_append, operand]
    simp only [hkind, hread]
    rfl

theorem readsBack_text (value : String) : ReadsBack (.text value) := by
  intro last room least tokens rest hsay _ _ _ _ _
  obtain ⟨token, rfl, hword⟩ := say_singleton_iff.mp hsay
  obtain ⟨hkind, hliteral⟩ := Token.word?_eq_text_iff.mp hword
  refine arrives_of_operand (.text token.literal token.span) ?_ ?_ least
  · rw [Node.expression?, hliteral]
  · rw [List.singleton_append, operand]
    simp only [hkind]
    rfl

theorem one_le_tightness (e : Expression) : 1 ≤ e.tightness := by
  cases e with
  | binary op left right => exact op.precedence_pos
  | _ => exact Nat.succ_le_succ (Nat.zero_le 5)

-- A whole expression stops in front of what can not go on with it.
theorem ReadsBack.whole {e : Expression} (h : ReadsBack e) {last : Position} {room : Nat}
    {tokens rest : List Token} (hsay : Say tokens e.words) (hheight : e.height ≤ maxNesting)
    (hroom : e.nesting ≤ room) (hsettled : Settled 1 rest) (hcall : NoCall e.words rest) :
    ∃ node, node.expression? = some e ∧
      expression (within last room) last 1 (tokens ++ rest) = .ok ⟨node, e.height, rest⟩ :=
  (h last room 1 tokens rest hsay (one_le_tightness e) hheight hroom
    (hsettled.mono (Nat.succ_le_succ (Nat.zero_le _))) hcall).expression_eq hsettled

-- Inside brackets a comma or the closing bracket stands behind it.
theorem ReadsBack.inside {e : Expression} (h : ReadsBack e) (last : Position) {room : Nat}
    {tokens : List Token} (rest : List Token) {stop : Token} (hsay : Say tokens e.words)
    (hheight : e.height ≤ maxNesting) (hroom : e.nesting ≤ room)
    (hstop : stop.kind = .comma ∨ stop.kind = .closeParen) :
    ∃ node, node.expression? = some e ∧
      expression (within last room) last 1 (tokens ++ stop :: rest) =
        .ok ⟨node, e.height, stop :: rest⟩ := by
  apply h.whole hsay hheight hroom
  · apply settled_cons
    intro op hop
    rcases hstop with hstop | hstop <;> cases hstop.symm.trans hop
  · apply noCall_cons
    rcases hstop with hstop | hstop <;> rw [hstop] <;> exact Token.Kind.noConfusion

-- Brackets make an operand of any expression.
theorem ReadsBack.brackets {e : Expression} (h : ReadsBack e) {last : Position} {room : Nat}
    {tokens rest : List Token} (hsay : Say tokens (Word.inBrackets e.words))
    (hheight : e.height ≤ maxNesting) (hroom : e.nesting + 1 ≤ room) (least : Nat) :
    Arrives e room least last tokens rest := by
  obtain ⟨front, back, rfl, hfront, hback⟩ := say_append_iff.mp hsay
  obtain ⟨opened, inner, rfl, hopened, hinner⟩ := say_cons_iff.mp hfront
  obtain ⟨closed, rfl, hclosed⟩ := say_singleton_iff.mp hback
  have hopen := (word?_eq_sign_iff rfl).mp hopened
  have hclose := (word?_eq_sign_iff rfl).mp hclosed
  obtain ⟨room, rfl⟩ : ∃ inside, room = inside + 1 := ⟨room - 1, by omega⟩
  obtain ⟨node, hnode, hread⟩ := h.inside last rest hinner hheight
    (Nat.le_of_succ_le_succ hroom) (.inr hclose)
  apply arrives_of_operand node hnode
  have htokens : opened :: inner ++ [closed] ++ rest = opened :: (inner ++ closed :: rest) := by simp
  rw [htokens, operand]
  simp only [hopen, within, hread, bind, Except.bind, closeGroup, hclose, if_true]

-- An operand is read back with or without brackets around it.
theorem ReadsBack.bracketed {e : Expression} (h : ReadsBack e) (last : Position)
    {room least least' : Nat} {tokens rest : List Token}
    (hsay : Say tokens (bracketed least e.tightness e.words)) (hleast : least' ≤ least)
    (hheight : e.height ≤ maxNesting) (hroom : deepened least e.tightness e.nesting ≤ room)
    (hsettled : Settled (least + 1) rest)
    (hcall : NoCall (Expression.bracketed least e.tightness e.words) rest) :
    Arrives e room least' last tokens rest := by
  unfold Expression.bracketed at hsay hcall
  unfold Expression.deepened at hroom
  split at hroom
  · rename_i hloose
    rw [if_pos hloose] at hsay
    exact h.brackets hsay hheight hroom least'
  · rename_i htight
    rw [if_neg htight] at hsay hcall
    have htight := Nat.not_lt.mp htight
    exact h last room least' tokens rest hsay (Nat.le_trans hleast htight) hheight hroom
      (hsettled.mono (Nat.succ_le_succ htight)) hcall

-- A left operand stops in front of the operator, which binds no tighter, and a
-- right operand in front of whatever binds as its operator does.
theorem readsBack_binary (op : Operator) {left right : Expression} (hleft : ReadsBack left)
    (hright : ReadsBack right) : ReadsBack (.binary op left right) := by
  intro last room least tokens rest hsay hleast hheight hroom hsettled hcall
  rw [Expression.words] at hsay hcall
  rw [Expression.tightness] at hleast hsettled
  rw [Expression.height] at hheight
  rw [Expression.nesting] at hroom
  have hrightWords := (Expression.begun_bracketed right.begun_words (op.precedence + 1)
    right.tightness).ne_nil
  obtain ⟨before, behind, rfl, hbefore, hbehind⟩ := say_append_iff.mp hsay
  obtain ⟨sign, after, rfl, hsign, hafter⟩ := say_cons_iff.mp hbehind
  have hkind := (word?_eq_sign_iff rfl).mp hsign
  have hfront : Settled (op.precedence + 1) (sign :: (after ++ rest)) := by
    apply settled_cons
    intro other hother
    cases hkind.symm.trans hother
    exact Nat.lt_succ_self _
  have hsignKind : sign.kind ≠ .openParen := by
    rw [hkind]
    exact Token.Kind.noConfusion
  obtain ⟨fuel, leftNode, hfuel, hleftNode, hreadLeft⟩ := hleft.bracketed last hbefore
    hleast (by omega) (Nat.le_trans (Nat.le_max_left _ _) hroom) hfront
    (noCall_cons hsignKind _ _)
  obtain ⟨room, rfl⟩ : ∃ inside, room = inside + 1 := ⟨room - 1, by omega⟩
  have hrightCall : NoCall (bracketed (op.precedence + 1) right.tightness right.words) rest :=
    (hcall.of_append _ (List.cons_ne_nil _ _)).of_append [.op op] hrightWords
  obtain ⟨rightNode, hrightNode, hreadRight⟩ := (hright.bracketed last hafter (Nat.le_refl _)
    (by omega) (Nat.le_of_succ_le_succ (Nat.le_trans (Nat.le_max_right _ _) hroom))
    (hsettled.mono (Nat.le_succ _)) hrightCall).expression_eq hsettled
  obtain ⟨fuel, rfl⟩ : ∃ more, fuel = more + 1 := by
    rw [List.length_cons] at hfuel
    exact ⟨fuel - 1, by omega⟩
  refine ⟨fuel, .binary op leftNode rightNode (leftNode.span.cover rightNode.span), ?_, ?_, ?_⟩
  · rw [List.length_cons, List.length_append] at hfuel
    omega
  · rw [Node.expression?, hleftNode, hrightNode]
  · have htokens : before ++ sign :: after ++ rest = before ++ sign :: (after ++ rest) := by simp
    rw [htokens, hreadLeft, climb]
    simp only [hkind, Nat.not_lt.mpr hleast, if_false, within, hreadRight, bind, Except.bind,
      bounded, Nat.not_lt.mpr hheight]
    rfl

-- Arguments and the bracket behind them are read back into a call. Each takes at
-- least one token, so the number of tokens is enough fuel.
theorem readsBack_arguments (last : Position) {room : Nat} (callee opened : Token)
    {closed : Token} (hclosed : closed.kind = .closeParen) (rest : List Token)
    {args : List Expression} (hne : args ≠ []) (h : ∀ e ∈ args, ReadsBack e) (fuel : Nat)
    (found : List Node) (tallest : Nat) {tokens : List Token}
    (hsay : Say tokens (Expression.wordsAll args)) (hfuel : tokens.length ≤ fuel)
    (hheight : max tallest (Expression.heightAll args) + 1 ≤ maxNesting)
    (hroom : Expression.nestingAll args ≤ room) :
    ∃ nodes span, Node.expressions? nodes = some args ∧
      arguments (within last (room + 1)) last callee opened fuel found tallest
          (tokens ++ closed :: rest) =
        .ok ⟨.call callee.literal (found ++ nodes) span,
          max tallest (Expression.heightAll args) + 1, rest⟩ := by
  induction args generalizing fuel found tallest tokens with
  | nil => exact absurd rfl hne
  | cons e more ih =>
      rw [Expression.heightAll] at hheight ⊢
      rw [Expression.nestingAll] at hroom
      have he := h e List.mem_cons_self
      cases more with
      | nil =>
          rw [Expression.wordsAll] at hsay
          rw [Expression.heightAll, Nat.max_zero] at hheight ⊢
          obtain ⟨fuel, rfl⟩ : ∃ more, fuel = more + 1 := by
            obtain ⟨first, others, rfl, -⟩ := hsay.exists_cons_of_begun e.begun_words
            rw [List.length_cons] at hfuel
            exact ⟨fuel - 1, by omega⟩
          obtain ⟨node, hnode, hread⟩ := he.inside last rest hsay (by omega)
            (Nat.le_trans (Nat.le_max_left _ _) hroom) (.inr hclosed)
          refine ⟨[node], callee.span.cover closed.span, ?_, ?_⟩
          · rw [Node.expressions?, hnode, Node.expressions?]
          · rw [arguments]
            simp only [within, hread, hclosed, bind, Except.bind, bounded,
              Nat.not_lt.mpr hheight, if_false]
      | cons next more =>
          rw [Expression.wordsAll] at hsay
          obtain ⟨before, behind, rfl, hbefore, hbehind⟩ := say_append_iff.mp hsay
          obtain ⟨comma, after, rfl, hcomma, hafter⟩ := say_cons_iff.mp hbehind
          have hkind := (word?_eq_sign_iff rfl).mp hcomma
          rw [List.length_append, List.length_cons] at hfuel
          obtain ⟨fuel, rfl⟩ : ∃ more, fuel = more + 1 := ⟨fuel - 1, by omega⟩
          obtain ⟨node, hnode, hread⟩ := he.inside last (after ++ closed :: rest) hbefore
            (by omega) (Nat.le_trans (Nat.le_max_left _ _) hroom) (.inl hkind)
          rw [← Nat.max_assoc] at hheight ⊢
          obtain ⟨nodes, span, hnodes, hcall⟩ := ih (List.cons_ne_nil _ _)
            (fun e he => h e (List.mem_cons_of_mem _ he)) fuel (found ++ [node])
            (max tallest e.height) hafter (by omega) hheight
            (Nat.le_trans (Nat.le_max_right _ _) hroom)
          refine ⟨node :: nodes, span, ?_, ?_⟩
          · rw [Node.expressions?, hnode, hnodes]
          · have htokens : before ++ comma :: after ++ closed :: rest =
                before ++ comma :: (after ++ closed :: rest) := by simp
            rw [htokens, arguments]
            simp only [within, hread, hkind, bind, Except.bind]
            rw [← within, hcall, List.append_assoc]
            rfl

theorem readsBack_call (callee : String) {args : List Expression} (h : ∀ e ∈ args, ReadsBack e) :
    ReadsBack (.call callee args) := by
  intro last room least tokens rest hsay _ hheight hroom _ _
  rw [Expression.words] at hsay
  rw [Expression.height] at hheight
  rw [Expression.nesting] at hroom
  obtain ⟨front, back, rfl, hfront, hback⟩ := say_append_iff.mp hsay
  obtain ⟨name, bracket, rfl, hname, hbracket⟩ := say_cons_iff.mp hfront
  obtain ⟨opened, inner, rfl, hopened, hinner⟩ := say_cons_iff.mp hbracket
  obtain ⟨closed, rfl, hclosed⟩ := say_singleton_iff.mp hback
  obtain ⟨hisName, rfl⟩ := Token.word?_eq_name_iff.mp hname
  have hopen := (word?_eq_sign_iff rfl).mp hopened
  have hclose := (word?_eq_sign_iff rfl).mp hclosed
  have htokens : name :: opened :: inner ++ [closed] ++ rest =
      name :: opened :: (inner ++ closed :: rest) := by simp
  by_cases hargs : args = []
  · subst hargs
    cases List.map_eq_nil_iff.mp hinner
    apply arrives_of_operand (.call name.literal [] (name.span.cover closed.span)) rfl
    rw [htokens, operand_of_isName hisName]
    unfold named
    simp only [hopen, hclose, if_true, List.nil_append]
    rfl
  · obtain ⟨room, rfl⟩ : ∃ inside, room = inside + 1 := by
      rw [if_neg (by simpa using hargs)] at hroom
      exact ⟨room - 1, by omega⟩
    rw [if_neg (by simpa using hargs)] at hroom
    obtain ⟨nodes, span, hnodes, hread⟩ := readsBack_arguments last name opened hclose rest hargs h
      (inner ++ closed :: rest).length [] 0 hinner (by simp) (by simpa using hheight)
      (Nat.le_of_succ_le_succ hroom)
    apply arrives_of_operand (.call name.literal nodes span)
    · rw [Node.expression?, hnodes]
      rfl
    · obtain ⟨first, more, rfl, hfirst⟩ :=
        hinner.exists_cons_of_begun (Expression.begun_wordsAll hargs)
      have hfirstKind : first.kind ≠ .closeParen := Token.Kind.ne_of_begins hfirst rfl
      rw [htokens, operand_of_isName hisName]
      unfold named
      simp only [hopen, if_true, List.cons_append, hfirstKind, if_false]
      rw [Nat.zero_max] at hread
      exact hread

mutual

theorem readsBack : ∀ e : Expression, ReadsBack e
  | .name literal => readsBack_name literal
  | .number value => readsBack_number value
  | .text value => readsBack_text value
  | .binary op left right => readsBack_binary op (readsBack left) (readsBack right)
  | .call callee args => readsBack_call callee (readsBackAll args)

theorem readsBackAll : ∀ args : List Expression, ∀ e ∈ args, ReadsBack e
  | [] => fun _ he => absurd he List.not_mem_nil
  | e :: rest => List.forall_mem_cons.mpr ⟨readsBack e, readsBackAll rest⟩

end

end Parse

end CandleScript
