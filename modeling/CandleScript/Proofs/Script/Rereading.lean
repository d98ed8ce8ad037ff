import CandleScript.Proofs.Script.Forms
import CandleScript.Proofs.Script.Moved
import CandleScript.Proofs.Script.ReadBack

namespace CandleScript

namespace Parse

-- Nothing behind tokens goes on with the expression that they form: no operator
-- binds as tightly as `least`, and no bracket follows a name.
structure EndsAt (least : Nat) (tokens rest : List Token) : Prop where
  settled : Settled least rest
  noCall : ∀ token, tokens.getLast? = some token → token.kind.isName = true →
    nextKind? rest ≠ some .openParen

section

variable {least : Nat} {tokens rest : List Token}

theorem EndsAt.mono {least' : Nat} (h : EndsAt least tokens rest) (hle : least ≤ least') :
    EndsAt least' tokens rest :=
  ⟨h.settled.mono hle, h.noCall⟩

-- Only the end of the tokens counts.
theorem EndsAt.append (h : EndsAt least tokens rest) (hne : tokens ≠ []) (before : List Token) :
    EndsAt least (before ++ tokens) rest := by
  refine ⟨h.settled, ?_⟩
  rw [List.getLast?_append_of_ne_nil before hne]
  exact h.noCall

theorem EndsAt.of_append (before : List Token) (h : EndsAt least (before ++ tokens) rest)
    (hne : tokens ≠ []) : EndsAt least tokens rest := by
  refine ⟨h.settled, ?_⟩
  have hcall := h.noCall
  rw [List.getLast?_append_of_ne_nil before hne] at hcall
  exact hcall

-- Only the next kind counts of what follows.
theorem EndsAt.congr {rest' : List Token} (h : EndsAt least tokens rest)
    (hnext : nextKind? rest' = nextKind? rest) : EndsAt least tokens rest' := by
  constructor
  · intro op hop
    exact h.settled op (hnext ▸ hop)
  · intro token htoken hname
    rw [hnext]
    exact h.noCall token htoken hname

-- An operand ends with its last token, unless that is a name.
theorem endsAt_concat (tokens : List Token) {token : Token} (h : token.kind.isName = false)
    (rest : List Token) : EndsAt 6 (tokens ++ [token]) rest := by
  refine ⟨settled_six rest, ?_⟩
  intro other hother hname
  rw [List.getLast?_concat] at hother
  cases hother
  cases h.symm.trans hname

-- What is no operator and no bracket ends every expression.
theorem endsAt_cons (stop : Token) (h : stop.kind = .comma ∨ stop.kind = .closeParen)
    (tokens rest : List Token) : EndsAt least tokens (stop :: rest) := by
  constructor
  · apply settled_cons
    intro op hop
    rcases h with h | h <;> cases h.symm.trans hop
  · intro _ _ _ hnext
    have hopen : stop.kind = .openParen := Option.some.inj hnext
    rcases h with h | h <;> cases h.symm.trans hopen

theorem nextKind?_append (tokens : List Token) (hne : tokens ≠ []) (rest : List Token) :
    nextKind? (tokens ++ rest) = nextKind? tokens := by
  cases tokens with
  | nil => exact absurd rfl hne
  | cons token more => rfl

theorem nextKind?_moved (lines : Nat) (tokens : List Token) :
    nextKind? (tokens.map (Token.moved lines)) = nextKind? tokens := by
  cases tokens <;> rfl

-- Tokens in between end an expression as they did before, wherever they are
-- moved to and whatever follows them.
theorem EndsAt.before {later rest' : List Token} (h : EndsAt least tokens (later ++ rest))
    (hlast : later = [] → EndsAt least tokens rest') (lines : Nat) :
    EndsAt least tokens (later.map (Token.moved lines) ++ rest') := by
  by_cases hlater : later = []
  · subst hlater
    exact hlast rfl
  · apply h.congr
    rw [nextKind?_append _ (by simpa using hlater), nextKind?_append _ hlater, nextKind?_moved]

end

theorem exists_of_nextKind? {tokens : List Token} {kind : Token.Kind}
    (h : nextKind? tokens = some kind) :
    ∃ first rest, tokens = first :: rest ∧ first.kind = kind := by
  cases tokens with
  | nil => cases h
  | cons first rest => exact ⟨first, rest, rfl, Option.some.inj h⟩

-- An operator binds tightly enough to go on, or the reading is settled.
theorem settled_or_op (least : Nat) (rest : List Token) :
    Settled least rest ∨ ∃ sign more op, rest = sign :: more ∧ sign.kind = .op op ∧
      ¬op.precedence < least := by
  by_cases h : Settled least rest
  · exact .inl h
  · simp only [Settled, not_forall] at h
    obtain ⟨op, hnext, hlow⟩ := h
    obtain ⟨sign, more, rfl, hkind⟩ := exists_of_nextKind? hnext
    exact .inr ⟨sign, more, op, rfl, hkind, hlow⟩

theorem exists_of_bind_eq_ok {ε α β : Type} {x : Except ε α} {f : α → Except ε β} {result : β}
    (h : x >>= f = .ok result) : ∃ value, x = .ok value ∧ f value = .ok result := by
  cases x with
  | error e => cases h
  | ok value => exact ⟨value, rfl, h⟩

theorem bounded_eq_ok_iff {node : Node} {height : Nat} {blamed : Token} {rest : List Token}
    {parsed : Parsed} : bounded node height blamed rest = .ok parsed ↔
      height ≤ maxNesting ∧ parsed = ⟨node, height, rest⟩ := by
  rw [bounded]
  split
  · rename_i hheight
    simp [Nat.not_le.mpr hheight]
  · rename_i hheight
    simp [Nat.not_lt.mp hheight, eq_comm]

theorem climb_op {inner : Inner} {least : Nat} {sign : Token} {op : Operator}
    (hkind : sign.kind = .op op) (hlow : ¬op.precedence < least) (fuel : Nat) (node : Node)
    (height : Nat) (more : List Token) :
    climb inner least (fuel + 1) ⟨node, height, sign :: more⟩ =
      (inner.expression sign (op.precedence + 1) more >>= fun right =>
        bounded (.binary op node right.node (node.span.cover right.node.span))
            (max height right.height + 1) sign right.rest >>= fun left =>
          climb inner least fuel left) := by
  rw [climb]
  simp only [hkind, if_neg hlow]

theorem named_bareCall {inner : Inner} {last : Position} {name opened closed : Token}
    (hopened : opened.kind = .openParen) (hclosed : closed.kind = .closeParen)
    (rest : List Token) :
    named inner last name (opened :: closed :: rest) =
      .ok ⟨.call name.literal [] (name.span.cover closed.span), 1, rest⟩ := by
  unfold named
  simp only [hopened, hclosed, if_true]

-- A bracket behind a name opens arguments unless it is closed at once.
theorem named_arguments {inner : Inner} {last : Position} {name opened : Token}
    {rest : List Token} (hopened : opened.kind = .openParen)
    (hrest : nextKind? rest ≠ some .closeParen) :
    named inner last name (opened :: rest) =
      arguments inner last name opened (max rest.length 1) [] 0 rest := by
  unfold named
  cases rest with
  | nil => simp only [hopened, if_true, List.length_nil, Nat.zero_max]
  | cons first more =>
      have hfirst : first.kind ≠ .closeParen := fun h => hrest (congrArg some h)
      have hlength : max (first :: more).length 1 = (first :: more).length :=
        Nat.max_eq_left (Nat.succ_le_succ (Nat.zero_le _))
      simp only [hopened, if_true, if_neg hfirst, hlength]

-- Reading takes tokens that form its tree, and stops where nothing goes on with
-- them. The same tokens further down are read as the same tree further down,
-- whatever follows them that does not go on with them either.
structure Taken (lines least : Nat) (again : Reader) (tokens : List Token) (parsed : Parsed)
    (used : List Token) : Prop where
  split : tokens = used ++ parsed.rest
  forms : Forms used parsed.node
  ends : EndsAt least used parsed.rest
  again : ∀ rest, EndsAt least used rest →
    again (used.map (Token.moved lines) ++ rest) =
      .ok ⟨parsed.node.moved lines, parsed.height, rest⟩

def Rereads (lines least : Nat) (reader again : Reader) : Prop :=
  ∀ tokens parsed, reader tokens = .ok parsed → ∃ used, Taken lines least again tokens parsed used

-- The same on the level further inside, whatever token is blamed.
structure InnerRereads (lines : Nat) (inner again : Inner) : Prop where
  operand : ∀ blamed blamed', Rereads lines 6 (inner.operand blamed) (again.operand blamed')
  expression : ∀ blamed blamed' least,
    Rereads lines least (inner.expression blamed least) (again.expression blamed' least)

theorem moved_binary (lines : Nat) (op : Operator) (left right : Node) :
    Node.binary op (left.moved lines) (right.moved lines)
        ((left.moved lines).span.cover (right.moved lines).span) =
      (Node.binary op left right (left.span.cover right.span)).moved lines := by
  rw [Node.moved, Node.span_moved, Node.span_moved, Span.cover_moved]

-- What the loop over operators takes behind the tokens `before` of the left
-- operand.
structure Climbed (lines least : Nat) (again : Inner) (before : List Token) (left parsed : Parsed)
    (used : List Token) : Prop where
  split : left.rest = used ++ parsed.rest
  forms : Forms (before ++ used) parsed.node
  ends : EndsAt least (before ++ used) parsed.rest
  again : ∀ fuel rest, used.length ≤ fuel → EndsAt least (before ++ used) rest →
    climb again least fuel
        ⟨left.node.moved lines, left.height, used.map (Token.moved lines) ++ rest⟩ =
      .ok ⟨parsed.node.moved lines, parsed.height, rest⟩

theorem climbed_nil {lines least : Nat} {before : List Token} {left : Parsed}
    (hforms : Forms before left.node) (hends : EndsAt least before left.rest) (again : Inner) :
    Climbed lines least again before left left [] := by
  refine ⟨rfl, ?_, ?_, ?_⟩
  · rwa [List.append_nil]
  · rwa [List.append_nil]
  · intro fuel rest _ hrest
    exact climb_of_settled hrest.settled fuel

-- An operator and its right operand in front of what the loop takes later.
theorem Climbed.op {lines least : Nat} {again : Inner} {before usedRight later : List Token}
    {left right parsed : Parsed} {sign : Token} {op : Operator} (hkind : sign.kind = .op op)
    (hlow : ¬op.precedence < least) (hheight : max left.height right.height + 1 ≤ maxNesting)
    (hrest : left.rest = sign :: (usedRight ++ right.rest))
    (hright : Taken lines (op.precedence + 1) (again.expression (sign.moved lines) (op.precedence + 1))
      (usedRight ++ right.rest) right usedRight)
    (h : Climbed lines least again (before ++ sign :: usedRight)
      ⟨.binary op left.node right.node (left.node.span.cover right.node.span),
        max left.height right.height + 1, right.rest⟩ parsed later) :
    Climbed lines least again before left parsed (sign :: usedRight ++ later) := by
  have hbefore : before ++ (sign :: usedRight ++ later) = before ++ sign :: usedRight ++ later := by
    simp
  have hsplit : right.rest = later ++ parsed.rest := h.split
  refine ⟨?_, ?_, ?_, ?_⟩
  · rw [hrest, hsplit]
    simp
  · rw [hbefore]
    exact h.forms
  · rw [hbefore]
    exact h.ends
  · intro fuel rest hfuel hends
    rw [hbefore] at hends
    obtain ⟨fuel, rfl⟩ : ∃ more, fuel = more + 1 := by
      rw [List.cons_append, List.length_cons] at hfuel
      exact ⟨fuel - 1, by omega⟩
    have hfuelLater : later.length ≤ fuel := by
      rw [List.cons_append, List.length_cons, List.length_append] at hfuel
      omega
    have hendsRight : EndsAt (op.precedence + 1) usedRight
        (later.map (Token.moved lines) ++ rest) := by
      apply EndsAt.before (hsplit ▸ hright.ends)
      rintro rfl
      rw [List.append_nil] at hends
      have hlast : EndsAt least ([sign] ++ usedRight) rest :=
        hends.of_append before (List.cons_ne_nil _ _)
      exact (hlast.of_append [sign] hright.forms.begun.ne_nil).mono (by omega)
    have hread := hright.again _ hendsRight
    have hlater := h.again fuel rest hfuelLater hends
    rw [← moved_binary] at hlater
    have htokens : (sign :: usedRight ++ later).map (Token.moved lines) ++ rest =
        sign.moved lines ::
          (usedRight.map (Token.moved lines) ++ (later.map (Token.moved lines) ++ rest)) := by
      simp
    have hkindMoved : (sign.moved lines).kind = .op op := hkind
    rw [htokens, climb_op hkindMoved hlow, hread]
    change (bounded _ _ _ _ >>= _) = _
    rw [bounded_eq_ok_iff.mpr ⟨hheight, rfl⟩]
    exact hlater

-- What the loop over arguments takes, and the bracket behind that.
structure Listed (lines : Nat) (again : Inner) (last' : Position) (callee opened' : Token)
    (found : List Node) (tallest : Nat) (tokens : List Token) (parsed : Parsed)
    (used : List Token) (closed : Token) (args : List Node) : Prop where
  split : tokens = used ++ closed :: parsed.rest
  closes : closed.kind = .closeParen
  forms : FormsAll used args
  node : parsed.node = .call callee.literal (found ++ args) (callee.span.cover closed.span)
  again : ∀ fuel rest, used.length ≤ fuel →
    arguments again last' (callee.moved lines) opened' fuel (found.map (Node.moved lines)) tallest
        (used.map (Token.moved lines) ++ closed.moved lines :: rest) =
      .ok ⟨parsed.node.moved lines, parsed.height, rest⟩

section

variable {lines : Nat} {again : Inner} {last' : Position} {callee opened' : Token}
    {found : List Node} {tallest : Nat} {tokens used : List Token} {argument parsed : Parsed}

theorem listed_one {closed : Token} {more : List Token}
    (htaken : Taken lines 1 (again.expression opened' 1) tokens argument used)
    (hrest : argument.rest = closed :: more) (hclosed : closed.kind = .closeParen)
    (hheight : max tallest argument.height + 1 ≤ maxNesting) :
    Listed lines again last' callee opened' found tallest tokens
      ⟨.call callee.literal (found ++ [argument.node]) (callee.span.cover closed.span),
        max tallest argument.height + 1, more⟩ used closed [argument.node] := by
  refine ⟨hrest ▸ htaken.split, hclosed, .one htaken.forms, rfl, ?_⟩
  intro fuel rest hfuel
  have hpos := List.length_pos_iff.mpr htaken.forms.begun.ne_nil
  obtain ⟨fuel, rfl⟩ : ∃ less, fuel = less + 1 := ⟨fuel - 1, by omega⟩
  have hread := htaken.again (closed.moved lines :: rest)
    (endsAt_cons (closed.moved lines) (.inr hclosed) _ _)
  rw [arguments, hread]
  simp only [bind, Except.bind, Token.kind_moved, hclosed]
  rw [bounded_eq_ok_iff.mpr ⟨hheight, rfl⟩, Node.moved, Node.movedAll_eq_map, Token.span_moved,
    Token.span_moved, Span.cover_moved, List.map_append]
  rfl

-- An argument and a comma in front of what the loop takes later.
theorem Listed.comma {comma closed : Token} {more later : List Token} {args : List Node}
    (h : Listed lines again last' callee opened' (found ++ [argument.node])
      (max tallest argument.height) more parsed later closed args)
    (htaken : Taken lines 1 (again.expression opened' 1) tokens argument used)
    (hrest : argument.rest = comma :: more) (hcomma : comma.kind = .comma) :
    Listed lines again last' callee opened' found tallest tokens parsed (used ++ comma :: later)
      closed (argument.node :: args) := by
  refine ⟨?_, h.closes, .more hcomma htaken.forms h.forms, ?_, ?_⟩
  · rw [htaken.split, hrest, h.split]
    simp
  · rw [h.node, List.append_assoc]
    rfl
  · intro fuel rest hfuel
    rw [List.length_append, List.length_cons] at hfuel
    obtain ⟨fuel, rfl⟩ : ∃ less, fuel = less + 1 := ⟨fuel - 1, by omega⟩
    have hread := htaken.again
      (comma.moved lines :: (later.map (Token.moved lines) ++ closed.moved lines :: rest))
      (endsAt_cons (comma.moved lines) (.inl hcomma) _ _)
    have hlater := h.again fuel rest (by omega)
    rw [List.map_append] at hlater
    have htokens : (used ++ comma :: later).map (Token.moved lines) ++ closed.moved lines :: rest =
        used.map (Token.moved lines) ++ comma.moved lines ::
          (later.map (Token.moved lines) ++ closed.moved lines :: rest) := by simp
    rw [htokens, arguments, hread]
    simp only [bind, Except.bind, Token.kind_moved, hcomma]
    exact hlater

end

section

variable {lines : Nat} {inner again : Inner} (hinner : InnerRereads lines inner again)

include hinner

-- Induction on the fuel. Where an operator goes on with the left operand, the
-- tree of both operands is the next left operand.
theorem rereads_climb {least : Nat} {parsed : Parsed} (fuel : Nat) {left : Parsed}
    {before : List Token} (hforms : Forms before left.node) (hends : EndsAt 6 before left.rest)
    (hfuel : left.rest.length ≤ fuel) (h : climb inner least fuel left = .ok parsed) :
    ∃ used, Climbed lines least again before left parsed used := by
  induction fuel generalizing left before with
  | zero =>
      have hsettled : Settled least left.rest := by
        rw [List.length_eq_zero_iff.mp (Nat.le_zero.mp hfuel)]
        exact settled_nil least
      cases h
      exact ⟨[], climbed_nil hforms ⟨hsettled, hends.noCall⟩ again⟩
  | succ fuel ih =>
      rcases settled_or_op least left.rest with hsettled | ⟨sign, more, op, hrest, hkind, hlow⟩
      · rw [climb_of_settled hsettled] at h
        cases h
        exact ⟨[], climbed_nil hforms ⟨hsettled, hends.noCall⟩ again⟩
      · have hleft : left = ⟨left.node, left.height, sign :: more⟩ := by rw [← hrest]
        rw [hleft, climb_op hkind hlow] at h
        obtain ⟨right, hright, hbounded⟩ := exists_of_bind_eq_ok h
        obtain ⟨next, hnext, hclimb⟩ := exists_of_bind_eq_ok hbounded
        obtain ⟨hheight, rfl⟩ := bounded_eq_ok_iff.mp hnext
        obtain ⟨used, htaken⟩ :=
          hinner.expression sign (sign.moved lines) (op.precedence + 1) more right hright
        obtain rfl := htaken.split
        have hendsRight : EndsAt 6 (before ++ sign :: used) right.rest :=
          ((EndsAt.append htaken.ends htaken.forms.begun.ne_nil [sign]).append
            (List.cons_ne_nil _ _) before).mono op.precedence_lt_six
        have hfuel' : right.rest.length ≤ fuel := by
          rw [hrest, List.length_cons, List.length_append] at hfuel
          omega
        obtain ⟨later, hlater⟩ := @ih ⟨_, _, right.rest⟩ (before ++ sign :: used)
          (.binary hkind hforms htaken.forms) hendsRight hfuel' hclimb
        exact ⟨sign :: used ++ later, hlater.op hkind hlow hheight hrest htaken⟩

-- The arguments of a call up to the bracket that closes it. Each takes at least
-- one token, so fuel for all of them lasts to the end.
theorem rereads_arguments (last last' : Position) (callee opened opened' : Token) (fuel : Nat)
    {found : List Node} {tallest : Nat} {tokens : List Token} {parsed : Parsed}
    (h : arguments inner last callee opened fuel found tallest tokens = .ok parsed) :
    ∃ used closed args,
      Listed lines again last' callee opened' found tallest tokens parsed used closed args := by
  induction fuel generalizing found tallest tokens with
  | zero => cases h
  | succ fuel ih =>
      rw [arguments] at h
      obtain ⟨argument, hargument, hnext⟩ := exists_of_bind_eq_ok h
      obtain ⟨used, htaken⟩ := hinner.expression opened opened' 1 tokens argument hargument
      split at hnext
      · cases hnext
      · rename_i next more hrest
        split at hnext
        · rename_i hcomma
          obtain ⟨later, closed, args, hlisted⟩ := ih hnext
          exact ⟨used ++ next :: later, closed, argument.node :: args,
            hlisted.comma htaken hrest hcomma⟩
        · rename_i hclosed
          obtain ⟨hheight, rfl⟩ := bounded_eq_ok_iff.mp hnext
          exact ⟨used, next, [argument.node], listed_one htaken hrest hclosed hheight⟩
        · cases hnext
        · cases hnext

-- A name by itself, or the call that a bracket behind it makes of it.
theorem rereads_named (last last' : Position) {name : Token} (hname : name.kind.isName = true)
    {tokens : List Token} {parsed : Parsed} (h : named inner last name tokens = .ok parsed) :
    ∃ used, Taken lines 6 (operand again last') (name :: tokens) parsed used := by
  have hmoved := @operand_of_isName again last' (name.moved lines) hname
  by_cases hcall : nextKind? tokens = some .openParen
  · obtain ⟨opened, rest, rfl, hopened⟩ := exists_of_nextKind? hcall
    by_cases hclose : nextKind? rest = some .closeParen
    · obtain ⟨closed, more, rfl, hclosed⟩ := exists_of_nextKind? hclose
      rw [named_bareCall hopened hclosed] at h
      cases h
      refine ⟨[name, opened, closed], rfl, .bareCall hname hopened hclosed,
        endsAt_concat [name, opened] (by rw [hclosed]; rfl) more, ?_⟩
      intro rest _
      change operand again last'
        (name.moved lines :: opened.moved lines :: closed.moved lines :: rest) = _
      have hopened' : (opened.moved lines).kind = .openParen := hopened
      have hclosed' : (closed.moved lines).kind = .closeParen := hclosed
      rw [hmoved, named_bareCall hopened' hclosed', Node.moved, Node.movedAll,
        Token.span_moved, Token.span_moved, Span.cover_moved]
      rfl
    · rw [named_arguments hopened hclose] at h
      obtain ⟨used, closed, args, hlisted⟩ :=
        rereads_arguments hinner last last' name opened (opened.moved lines) _ h
      refine ⟨name :: opened :: used ++ [closed], by simp [hlisted.split], ?_,
        endsAt_concat (name :: opened :: used) (by rw [hlisted.closes]; rfl) _, ?_⟩
      · rw [hlisted.node]
        exact .call hname hopened hlisted.closes hlisted.forms
      · intro rest _
        have htokens : (name :: opened :: used ++ [closed]).map (Token.moved lines) ++ rest =
            name.moved lines :: opened.moved lines ::
              (used.map (Token.moved lines) ++ closed.moved lines :: rest) := by simp
        have hfirst : nextKind? (used.map (Token.moved lines) ++ closed.moved lines :: rest) ≠
            some .closeParen := by
          obtain ⟨first, more, rfl, hbegins⟩ := hlisted.forms.begun
          intro hkind
          have hclose : first.kind = .closeParen := Option.some.inj hkind
          rw [hclose] at hbegins
          rcases hbegins with h | h <;> cases h
        have hopened' : (opened.moved lines).kind = .openParen := hopened
        rw [htokens, hmoved, named_arguments hopened' hfirst]
        apply hlisted.again
        simp
  · rw [named_of_noCall hcall] at h
    cases h
    refine ⟨[name], rfl, .name hname, ⟨settled_six _, fun _ _ _ => hcall⟩, ?_⟩
    intro rest hends
    change operand again last' (name.moved lines :: rest) = _
    rw [hmoved, named_of_noCall (hends.noCall name rfl hname)]
    rfl

theorem rereads_group (last last' : Position) {opened : Token} (hopened : opened.kind = .openParen)
    {tokens : List Token} {parsed : Parsed}
    (h : (inner.expression opened 1 tokens >>= closeGroup last opened) = .ok parsed) :
    ∃ used, Taken lines 6 (operand again last') (opened :: tokens) parsed used := by
  obtain ⟨group, hgroup, hclose⟩ := exists_of_bind_eq_ok h
  obtain ⟨used, htaken⟩ := hinner.expression opened (opened.moved lines) 1 tokens group hgroup
  obtain rfl := htaken.split
  rw [closeGroup] at hclose
  split at hclose
  · cases hclose
  · rename_i closed more hrest
    split at hclose
    · rename_i hclosed
      cases hclose
      refine ⟨opened :: used ++ [closed], by simp [hrest], .group hopened hclosed htaken.forms,
        endsAt_concat (opened :: used) (by rw [hclosed]; rfl) more, ?_⟩
      intro rest _
      have hread := htaken.again (closed.moved lines :: rest)
        (endsAt_cons (closed.moved lines) (.inr hclosed) _ _)
      have htokens : (opened :: used ++ [closed]).map (Token.moved lines) ++ rest =
          opened.moved lines :: (used.map (Token.moved lines) ++ closed.moved lines :: rest) := by
        simp
      rw [htokens, operand]
      simp only [Token.kind_moved, hopened, hread, bind, Except.bind, closeGroup, hclosed, if_true]
    · cases hclose

theorem rereads_negated (last' : Position) {minus : Token} (hminus : minus.kind = .op .sub)
    {tokens : List Token} {parsed : Parsed}
    (h : (inner.operand minus tokens >>= negated minus) = .ok parsed) :
    ∃ used, Taken lines 6 (operand again last') (minus :: tokens) parsed used := by
  obtain ⟨value, hvalue, hnegated⟩ := exists_of_bind_eq_ok h
  obtain ⟨used, htaken⟩ := hinner.operand minus (minus.moved lines) tokens value hvalue
  obtain rfl := htaken.split
  obtain ⟨hheight, rfl⟩ := bounded_eq_ok_iff.mp hnegated
  have hne := htaken.forms.begun.ne_nil
  refine ⟨minus :: used, rfl, .negated hminus htaken.forms, htaken.ends.append hne [minus], ?_⟩
  intro rest hends
  have hread := htaken.again rest (hends.of_append [minus] hne)
  change operand again last' (minus.moved lines :: (used.map (Token.moved lines) ++ rest)) = _
  rw [operand]
  simp only [Token.kind_moved, hminus, hread, bind, Except.bind, negated]
  rw [bounded_eq_ok_iff.mpr ⟨hheight, rfl⟩, Node.moved, Node.moved, Token.span_moved,
    Node.span_moved, Span.cover_moved]

-- One case for each kind of token that an operand can start with.
theorem rereads_operand (last last' : Position) :
    Rereads lines 6 (operand inner last) (operand again last') := by
  intro tokens parsed h
  cases tokens with
  | nil => cases h
  | cons token rest =>
      rw [operand] at h
      split at h
      · rename_i hkind
        exact rereads_named hinner last last' (congrArg Token.Kind.isName hkind) h
      · rename_i hkind
        exact rereads_named hinner last last' (congrArg Token.Kind.isName hkind) h
      · rename_i hkind
        exact rereads_named hinner last last' (congrArg Token.Kind.isName hkind) h
      · rename_i hkind
        split at h
        · rename_i value hread
          cases h
          refine ⟨[token], rfl, .number hkind hread,
            endsAt_concat [] (by rw [hkind]; rfl) rest, ?_⟩
          intro rest _
          change operand again last' (token.moved lines :: rest) = _
          rw [operand]
          simp only [Token.kind_moved, hkind, Token.literal_moved, hread]
          rfl
        · cases h
      · rename_i hkind
        cases h
        refine ⟨[token], rfl, .text hkind, endsAt_concat [] (by rw [hkind]; rfl) rest, ?_⟩
        intro rest _
        change operand again last' (token.moved lines :: rest) = _
        rw [operand]
        simp only [Token.kind_moved, hkind]
        rfl
      · rename_i hopened
        exact rereads_group hinner last last' hopened h
      · rename_i hminus
        exact rereads_negated hinner last' hminus h
      · cases h
      · cases h

theorem rereads_expression (last last' : Position) (least : Nat) :
    Rereads lines least (expression inner last least) (expression again last' least) := by
  intro tokens parsed h
  obtain ⟨left, hleft, hclimb⟩ := exists_of_bind_eq_ok h
  obtain ⟨before, htaken⟩ := rereads_operand hinner last last' tokens left hleft
  obtain rfl := htaken.split
  obtain ⟨used, hclimbed⟩ := rereads_climb hinner _ htaken.forms htaken.ends (by simp) hclimb
  refine ⟨before ++ used, by rw [hclimbed.split, List.append_assoc], hclimbed.forms,
    hclimbed.ends, ?_⟩
  intro rest hends
  have hendsLeft : EndsAt 6 before (used.map (Token.moved lines) ++ rest) := by
    apply EndsAt.before (hclimbed.split ▸ htaken.ends)
    rintro rfl
    rw [List.append_nil] at hends
    exact ⟨settled_six rest, hends.noCall⟩
  have hread := htaken.again _ hendsLeft
  rw [List.map_append, List.append_assoc, expression, hread]
  apply hclimbed.again _ _ _ hends
  simp
  omega

omit hinner

-- The room decides how far inside an expression may go. Where it is used up,
-- nothing is read.
theorem rereads_within (last last' : Position) (room : Nat) :
    InnerRereads lines (within last room) (within last' room) := by
  induction room with
  | zero => exact ⟨fun _ _ _ _ h => (nomatch h), fun _ _ _ _ _ h => (nomatch h)⟩
  | succ room ih =>
      exact ⟨fun _ _ => rereads_operand ih last last', fun _ _ => rereads_expression ih last last'⟩

theorem rereads_wholeExpression (lines : Nat) (last last' : Position) :
    Rereads lines 1 (wholeExpression last) (wholeExpression last') :=
  rereads_expression (rereads_within last last' maxNesting) last last' 1

end

end Parse

end CandleScript
