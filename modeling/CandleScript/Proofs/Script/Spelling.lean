import CandleScript.Proofs.Script.Nesting
import CandleScript.Script.Parse

namespace CandleScript.Parse

open Token (Lead lead_nil)

def nextKind? (tokens : List Token) : Option Token.Kind := tokens.head?.map Token.kind

-- A name is not left in front of a bracket, where it would have become a call.
def NoCall (words : List Word) (rest : List Token) : Prop :=
  ∀ name, words.getLast? = some (.name name) → nextKind? rest ≠ some .openParen

-- No operator is left that binds as tightly as `least`.
def Settled (least : Nat) (rest : List Token) : Prop :=
  ∀ op, nextKind? rest = some (.op op) → op.precedence < least

-- The words in front of `rest` spell the tree that is read from them, inside of
-- `opened` constructs and within the bounds.
structure Spelled (opened : Nat) (tokens : List Token) (node : Node) (rest : List Token)
    (words : List Word) : Prop where
  lead : Lead tokens words rest
  fits : Fits opened words node
  noCall : NoCall words rest

-- If anything is read, it is spelled by the words in front of what is left, and
-- its height is known.
def Reads (opened least : Nat) (tokens : List Token) (result : Except ParseError Parsed) : Prop :=
  ∀ parsed, result = .ok parsed →
    (∃ words, Spelled opened tokens parsed.node parsed.rest words) ∧
      Settled least parsed.rest ∧ parsed.height = parsed.node.height

-- What is read on the level inside of `opened` constructs.
structure InnerReads (inner : Inner) (opened : Nat) : Prop where
  operand : ∀ blamed tokens, Reads opened 6 tokens (inner.operand blamed tokens)
  expression : ∀ blamed least tokens,
    Reads opened least tokens (inner.expression blamed least tokens)

-- No operator binds that tightly.
theorem settled_six (rest : List Token) : Settled 6 rest := fun op _ => op.precedence_lt_six

theorem settled_nil (least : Nat) : Settled least [] := by
  rintro op ⟨⟩

theorem settled_cons {least : Nat} {token : Token} (rest : List Token)
    (h : ∀ op, token.kind = .op op → op.precedence < least) : Settled least (token :: rest) := by
  intro op hop
  exact h op (Option.some.inj hop)

theorem NoCall.append {words : List Word} {rest : List Token} (h : NoCall words rest)
    (hwords : words ≠ []) (before : List Word) : NoCall (before ++ words) rest := by
  intro name hname
  rw [List.getLast?_append, List.getLast?_eq_some_getLast hwords, Option.some_or] at hname
  exact h name ((List.getLast?_eq_some_getLast hwords).trans hname)

theorem noCall_closeParen (words : List Word) (rest : List Token) :
    NoCall (words ++ [.closeParen]) rest := by
  intro name hname
  rw [List.getLast?_concat] at hname
  cases hname

section

variable {tokens : List Token} {words : List Word} {opened least : Nat}

theorem reads_error (e : ParseError) : Reads opened least tokens (.error e) := by
  rintro _ ⟨⟩

theorem Spelled.reads {parsed : Parsed} (h : Spelled opened tokens parsed.node parsed.rest words)
    (hsettled : Settled least parsed.rest) (hheight : parsed.height = parsed.node.height) :
    Reads opened least tokens (.ok parsed) := by
  rintro _ ⟨⟩
  exact ⟨⟨words, h⟩, hsettled, hheight⟩

-- A tree that is too tall ends the reading, any other one is passed on.
theorem reads_bounded_bind {node : Node} {blamed : Token} {rest : List Token}
    {f : Parsed → Except ParseError Parsed}
    (hf : node.height ≤ maxNesting → Reads opened least tokens (f ⟨node, node.height, rest⟩)) :
    Reads opened least tokens (bounded node node.height blamed rest >>= f) := by
  rw [bounded]
  split
  · exact reads_error _
  · rename_i hheight
    exact hf (Nat.not_lt.mp hheight)

theorem reads_bounded {node : Node} {blamed : Token} {rest : List Token}
    (h : node.height ≤ maxNesting → Spelled opened tokens node rest words) :
    Reads opened 6 tokens (bounded node node.height blamed rest) := by
  rw [bounded]
  split
  · exact reads_error _
  · rename_i hheight
    exact Spelled.reads (h (Nat.not_lt.mp hheight)) (settled_six rest) rfl

theorem Reads.bind {opened' least' : Nat} {tokens' : List Token}
    {result : Except ParseError Parsed} (h : Reads opened least tokens result)
    {f : Parsed → Except ParseError Parsed}
    (hf : ∀ parsed words, Spelled opened tokens parsed.node parsed.rest words →
      Settled least parsed.rest → parsed.height = parsed.node.height →
      Reads opened' least' tokens' (f parsed)) :
    Reads opened' least' tokens' (result >>= f) := by
  cases result with
  | error e => exact reads_error e
  | ok parsed =>
      obtain ⟨⟨words, hspelled⟩, hsettled, hheight⟩ := h parsed rfl
      exact hf parsed words hspelled hsettled hheight

theorem Spelled.length_lt {node : Node} {rest : List Token}
    (h : Spelled opened tokens node rest words) : rest.length < tokens.length := by
  have hlength := h.lead.length_eq
  have hwords := List.length_pos_iff.mpr h.fits.spells.ne_nil
  omega

-- A left operand, its operator and a right operand.
theorem Spelled.binary {sign : Token} {left right : Node} {more rest : List Token}
    {later : List Word} (hleft : Spelled opened tokens left (sign :: more) words) {op : Operator}
    (hkind : sign.kind = .op op) (hright : Spelled (opened + 1) more right rest later) (span : Span)
    (hheight : max left.height right.height + 1 ≤ maxNesting) :
    Spelled opened tokens (.binary op left right span) rest (words ++ .op op :: later) where
  lead := hleft.lead.append (hright.lead.sign (.op op) rfl hkind)
  fits := hleft.fits.binary hright.fits op span hheight
  noCall :=
    (hright.noCall.append hright.fits.spells.ne_nil [.op op]).append (List.cons_ne_nil _ _) words

end

variable {inner : Inner} {opened : Nat} (hinner : InnerReads inner (opened + 1))

include hinner

-- Each step takes an operator, so fuel for all tokens lasts to the end.
theorem reads_climb {tokens : List Token} (least fuel : Nat) {left : Parsed} {words : List Word}
    (hleft : Spelled opened tokens left.node left.rest words)
    (hheight : left.height = left.node.height) (hfuel : left.rest.length ≤ fuel) :
    Reads opened least tokens (climb inner least fuel left) := by
  induction fuel generalizing left words with
  | zero =>
      refine hleft.reads ?_ hheight
      rw [List.length_eq_zero_iff.mp (Nat.le_zero.mp hfuel)]
      exact settled_nil least
  | succ fuel ih =>
      rw [climb]
      split
      · rename_i hrest
        exact hleft.reads (hrest ▸ settled_nil least) hheight
      · rename_i sign more hrest
        rw [hrest] at hleft hfuel
        split
        · rename_i op hkind
          split
          · rename_i hlow
            refine Spelled.reads (hrest ▸ hleft) ?_ hheight
            rw [hrest]
            apply settled_cons
            rintro other hother
            cases hkind.symm.trans hother
            exact hlow
          · refine (hinner.expression _ _ _).bind ?_
            intro right later hright _ hright'
            have hshort := hright.length_lt
            have hfuel' : right.rest.length ≤ fuel := by
              rw [List.length_cons] at hfuel
              omega
            rw [hheight, hright']
            refine @reads_bounded_bind tokens opened least
              (.binary op left.node right.node (left.node.span.cover right.node.span)) _ _ _ ?_
            intro hbound
            exact ih (hleft.binary hkind hright _ hbound) rfl hfuel'
        · rename_i hkind
          refine Spelled.reads (hrest ▸ hleft) ?_ hheight
          rw [hrest]
          apply settled_cons
          intro op hop
          exact absurd hop (hkind op)

-- The arguments that a call takes, the bracket behind them and the tree. Those
-- found before stand in front of them.
theorem reads_arguments (last : Position) (callee bracket : Token) (fuel : Nat)
    (found : List Node) (tallest : Nat) {tokens : List Token} {parsed : Parsed}
    (h : arguments inner last callee bracket fuel found tallest tokens = .ok parsed) :
    ∃ words args span, Lead tokens (words ++ [.closeParen]) parsed.rest ∧
      FitsAll (opened + 1) words args ∧
      parsed.node = .call callee.literal (found ++ args) span ∧
      parsed.height = max tallest (Node.heightAll args) + 1 ∧ parsed.height ≤ maxNesting := by
  induction fuel generalizing found tallest tokens with
  | zero => contradiction
  | succ fuel ih =>
      rw [arguments] at h
      cases hargument : inner.expression bracket 1 tokens with
      | error e =>
          rw [hargument] at h
          contradiction
      | ok argument =>
          obtain ⟨⟨words, hspelled⟩, -, hheight⟩ := hinner.expression _ _ _ _ hargument
          simp only [hargument, bind, Except.bind] at h
          split at h
          · contradiction
          · rename_i next rest hrest
            have hlead := hrest ▸ hspelled.lead
            split at h
            · rename_i hcomma
              obtain ⟨later, args, span, hlater, hargs, hnode, htallest, hbound⟩ := ih _ _ h
              refine ⟨words ++ .comma :: later, argument.node :: args, span, ?_,
                .more hspelled.fits hargs, ?_, ?_, hbound⟩
              · rw [List.append_assoc]
                exact hlead.append (hlater.sign .comma rfl hcomma)
              · rw [hnode, List.append_assoc]
                rfl
              · rw [htallest, hheight, Node.heightAll, Nat.max_assoc]
            · rename_i hclose
              have hclosed := (lead_nil rest).sign .closeParen rfl hclose
              rw [bounded] at h
              split at h
              · contradiction
              · rename_i hbound
                cases h
                refine ⟨words, [argument.node], _, hlead.append hclosed, .one hspelled.fits, rfl,
                  ?_, Nat.not_lt.mp hbound⟩
                rw [hheight, Node.heightAll, Node.heightAll, Nat.max_zero]
            · contradiction
            · contradiction

theorem reads_call (last : Position) {name bracket : Token} (hname : name.kind.isName = true)
    (hbracket : bracket.kind = .openParen) (fuel : Nat) (tokens : List Token) :
    Reads opened 6 (name :: bracket :: tokens)
      (arguments inner last name bracket fuel [] 0 tokens) := by
  intro parsed hparsed
  obtain ⟨words, args, span, hlead, hargs, hnode, hheight, hbound⟩ :=
    reads_arguments hinner _ _ _ _ _ _ hparsed
  have hcall := (hlead.sign .openParen rfl hbracket).cons
    (Token.word?_eq_name_iff.mpr ⟨hname, rfl⟩)
  rw [List.nil_append] at hnode
  rw [Nat.zero_max] at hheight
  rw [hnode]
  exact ⟨⟨_, hcall, Fits.call hargs _ span (hheight ▸ hbound),
    noCall_closeParen (.name _ :: .openParen :: words) _⟩, settled_six _, hheight⟩

variable (hopened : opened ≤ maxNesting)

include hopened

theorem reads_named (last : Position) {name : Token} (hname : name.kind.isName = true)
    (tokens : List Token) : Reads opened 6 (name :: tokens) (named inner last name tokens) := by
  have hword := Token.word?_eq_name_iff.mpr ⟨hname, rfl⟩
  have hbare : nextKind? tokens ≠ some .openParen →
      Reads opened 6 (name :: tokens) (.ok ⟨.name name.literal name.span, 1, tokens⟩) := by
    intro hnext
    exact Spelled.reads ⟨(lead_nil tokens).cons hword, .leaf hopened (.name _ _) rfl,
      fun _ _ => hnext⟩ (settled_six _) rfl
  cases tokens with
  | nil => exact hbare nofun
  | cons bracket rest =>
      unfold named
      simp only
      split
      · rename_i hbracket
        cases rest with
        | nil => exact reads_call hinner last hname hbracket _ _
        | cons close more =>
            simp only
            split
            · rename_i hclose
              have hlead := (((lead_nil more).sign .closeParen rfl hclose).sign .openParen rfl
                hbracket).cons hword
              exact Spelled.reads ⟨hlead, .bareCall hopened _ _,
                noCall_closeParen [.name name.literal, .openParen] _⟩ (settled_six _) rfl
            · exact reads_call hinner last hname hbracket _ _
      · rename_i hbracket
        apply hbare
        rintro hnext
        exact hbracket (Option.some.inj hnext)

theorem reads_operand (last : Position) (tokens : List Token) :
    Reads opened 6 tokens (operand inner last tokens) := by
  cases tokens with
  | nil => exact reads_error _
  | cons token rest =>
      rw [operand]
      split
      · rename_i hkind
        exact reads_named hinner hopened last (congrArg Token.Kind.isName hkind) rest
      · rename_i hkind
        exact reads_named hinner hopened last (congrArg Token.Kind.isName hkind) rest
      · rename_i hkind
        exact reads_named hinner hopened last (congrArg Token.Kind.isName hkind) rest
      · rename_i hkind
        split
        · rename_i value hvalue
          have hlead := (lead_nil rest).cons (Token.word?_eq_number_iff.mpr ⟨hkind, hvalue⟩)
          exact Spelled.reads ⟨hlead, .leaf hopened (.number _ _) rfl, nofun⟩ (settled_six _) rfl
        · exact reads_error _
      · rename_i hkind
        have hlead := (lead_nil rest).cons (Token.word?_eq_text_iff.mpr ⟨hkind, rfl⟩)
        exact Spelled.reads ⟨hlead, .leaf hopened (.text _ _) rfl, nofun⟩ (settled_six _) rfl
      · rename_i hbracket
        refine (hinner.expression _ _ _).bind ?_
        intro group words hgroup _ hheight
        rw [closeGroup]
        split
        · exact reads_error _
        · rename_i close more hrest
          split
          · rename_i hclose
            have hclosed := (lead_nil more).sign .closeParen rfl hclose
            have hlead := ((hrest ▸ hgroup.lead).append hclosed).sign .openParen rfl hbracket
            exact Spelled.reads ⟨hlead, hgroup.fits.group,
              noCall_closeParen (.openParen :: words) _⟩ (settled_six _) hheight
          · exact reads_error _
      · rename_i hminus
        refine (hinner.operand _ _).bind ?_
        intro operand words hoperand _ hheight
        have hnegated := Node.height_negated token.span (token.span.cover operand.node.span)
          operand.node
        rw [negated, hheight, ← hnegated]
        apply reads_bounded
        intro hbound
        exact ⟨hoperand.lead.sign (.op .sub) rfl hminus,
          hoperand.fits.negated _ _ hbound,
          hoperand.noCall.append hoperand.fits.spells.ne_nil [.op .sub]⟩
      · exact reads_error _
      · exact reads_error _

theorem reads_expression (last : Position) (least : Nat) (tokens : List Token) :
    Reads opened least tokens (expression inner last least tokens) := by
  rw [expression]
  refine (reads_operand hinner hopened last tokens).bind ?_
  intro left words hleft _ hheight
  exact reads_climb hinner least _ hleft hheight (Nat.le_of_lt hleft.length_lt)

omit hinner hopened

-- Room for further constructs and the constructs that are open make up the
-- bound on nesting.
theorem innerReads_within (last : Position) (room opened : Nat)
    (hroom : opened + room = maxNesting) : InnerReads (within last room) (opened + 1) := by
  induction room generalizing opened with
  | zero => exact ⟨fun _ _ => reads_error _, fun _ _ _ => reads_error _⟩
  | succ room ih =>
      have hinner := ih (opened + 1) (by omega)
      exact ⟨fun _ => reads_operand hinner (by omega) last,
        fun _ => reads_expression hinner (by omega) last⟩

theorem reads_wholeExpression (last : Position) (tokens : List Token) :
    Reads 0 1 tokens (wholeExpression last tokens) :=
  reads_expression (innerReads_within last maxNesting 0 (Nat.zero_add _)) (Nat.zero_le _) last 1
    tokens

-- What is left behind a statement is no part of it.
structure SpelledStatement (tokens : List Token) (node : Node) (rest : List Token)
    (words : List Word) : Prop where
  lead : Lead tokens words rest
  fits : FitsStatement words node
  noCall : NoCall words rest
  settled : Settled 1 rest

theorem bareStatement_spelled {last : Position} {tokens rest : List Token} {node : Node}
    (h : bareStatement last tokens = .ok (node, rest)) :
    ∃ words, SpelledStatement tokens node rest words := by
  cases hwhole : wholeExpression last tokens with
  | error e =>
      rw [bareStatement, hwhole] at h
      contradiction
  | ok parsed =>
      rw [bareStatement, hwhole] at h
      obtain ⟨⟨words, hspelled⟩, hsettled, -⟩ := reads_wholeExpression last tokens parsed hwhole
      cases h
      exact ⟨words, hspelled.lead, .bare hspelled.fits, hspelled.noCall, hsettled⟩

theorem statement_spelled {last : Position} {tokens rest : List Token} {node : Node}
    (h : statement last tokens = .ok (node, rest)) :
    ∃ words, SpelledStatement tokens node rest words := by
  unfold statement at h
  split at h
  · rename_i name sign more
    split at h
    · rename_i hassign
      cases hwhole : wholeExpression last more with
      | error e =>
          rw [hwhole] at h
          contradiction
      | ok parsed =>
          rw [hwhole] at h
          obtain ⟨⟨words, hvalue⟩, hsettled, -⟩ := reads_wholeExpression last more parsed hwhole
          cases h
          have hlead := (hvalue.lead.sign .assign rfl hassign.2).cons
            (Token.word?_eq_name_iff.mpr ⟨hassign.1, rfl⟩)
          have hcall := hvalue.noCall.append hvalue.fits.spells.ne_nil [.name name.literal, .assign]
          exact ⟨_, hlead, .assign _ _ hvalue.fits, hcall, hsettled⟩
    · exact bareStatement_spelled h
  · exact bareStatement_spelled h

theorem SpelledStatement.length_lt {tokens rest : List Token} {node : Node} {words : List Word}
    (h : SpelledStatement tokens node rest words) : rest.length < tokens.length := by
  have hlength := h.lead.length_eq
  have hwords := List.length_pos_iff.mpr h.fits.spells.ne_nil
  omega

theorem SpelledStatement.apart {tokens rest : List Token} {node : Node} {words later : List Word}
    (h : SpelledStatement tokens node rest words)
    (hlater : Token.Say (Token.beforeEnd rest) later) : Apart words later := by
  constructor
  · intro op hop
    have hlow := h.settled op (Token.kind_of_say_beforeEnd hlater hop rfl)
    exact absurd op.precedence_pos (by omega)
  · intro name hname hopen
    exact h.noCall name hname (Token.kind_of_say_beforeEnd hlater hopen rfl)

-- Each statement takes a token, so fuel for all tokens lasts to the end.
theorem statements_spelled {last : Position} (fuel : Nat) {tokens : List Token} {script : Script}
    (hfuel : tokens.length ≤ fuel) (h : statements last fuel tokens = .ok script) :
    ∃ words, Token.Say (Token.beforeEnd tokens) words ∧ FitsScript words script := by
  induction fuel generalizing tokens script with
  | zero =>
      cases List.length_eq_zero_iff.mp (Nat.le_zero.mp hfuel)
      cases h
      exact ⟨[], Token.say_nil, .nil⟩
  | succ fuel ih =>
      cases tokens with
      | nil =>
          cases h
          exact ⟨[], Token.say_nil, .nil⟩
      | cons token rest =>
          rw [statements] at h
          split at h
          · rename_i hending
            cases h
            refine ⟨[], ?_, .nil⟩
            rw [Token.beforeEnd, List.takeWhile_cons_of_neg (by simp [hending])]
            exact Token.say_nil
          · cases hstatement : statement last (token :: rest) with
            | error e =>
                rw [hstatement] at h
                contradiction
            | ok first =>
                obtain ⟨node, more⟩ := first
                obtain ⟨words, hspelled⟩ := statement_spelled hstatement
                have hshort := hspelled.length_lt
                simp only [hstatement, bind, Except.bind] at h
                split at h
                · contradiction
                · rename_i nodes hnodes
                  cases h
                  obtain ⟨later, hlater, hscript⟩ := ih (by omega) hnodes
                  exact ⟨words ++ later, hspelled.lead.say_beforeEnd hlater,
                    .cons hspelled.fits (hspelled.apart hlater) hscript⟩

end CandleScript.Parse

namespace CandleScript

-- Only what the grammar spells is parsed, and only within the bounds on nesting
-- and height.
theorem fits_of_parse {tokens : List Token} {script : Script} (h : parse tokens = .ok script) :
    ∃ words, Token.Say (Token.beforeEnd tokens) words ∧ FitsScript words script :=
  Parse.statements_spelled _ (Nat.le_refl _) h

theorem spells_of_parse {tokens : List Token} {script : Script} (h : parse tokens = .ok script) :
    ∃ words, Token.Say (Token.beforeEnd tokens) words ∧ SpellsScript words script := by
  obtain ⟨words, hsay, hfits⟩ := fits_of_parse h
  exact ⟨words, hsay, hfits.spells⟩

end CandleScript
