import CandleScript.Proofs.Script.Written

namespace CandleScript

mutual

-- The tokens that form an expression, with the places in its tree. A leaf has
-- the place of its token, and the zero before a sign that of the sign. Any other
-- node covers its outermost parts; the brackets of a group leave no trace.
inductive Forms : List Token → Node → Prop where
  | name {token : Token} (h : token.kind.isName = true) :
    Forms [token] (.name token.literal token.span)
  | number {token : Token} {value : Float} (h : token.kind = .number)
    (hread : Number.read token.literal.toList = .ok value) :
    Forms [token] (.number value token.span)
  | text {token : Token} (h : token.kind = .text) :
    Forms [token] (.text token.literal token.span)
  | group {opened closed : Token} {tokens : List Token} {node : Node}
    (hopened : opened.kind = .openParen) (hclosed : closed.kind = .closeParen) :
    Forms tokens node → Forms (opened :: tokens ++ [closed]) node
  | negated {minus : Token} {tokens : List Token} {operand : Node}
    (h : minus.kind = .op .sub) :
    Forms tokens operand →
      Forms (minus :: tokens)
        (.binary .sub (.number 0.0 minus.span) operand (minus.span.cover operand.span))
  | binary {sign : Token} {before after : List Token} {left right : Node} {op : Operator}
    (h : sign.kind = .op op) :
    Forms before left → Forms after right →
      Forms (before ++ sign :: after) (.binary op left right (left.span.cover right.span))
  | bareCall {name opened closed : Token} (hname : name.kind.isName = true)
    (hopened : opened.kind = .openParen) (hclosed : closed.kind = .closeParen) :
    Forms [name, opened, closed] (.call name.literal [] (name.span.cover closed.span))
  | call {name opened closed : Token} {tokens : List Token} {args : List Node}
    (hname : name.kind.isName = true) (hopened : opened.kind = .openParen)
    (hclosed : closed.kind = .closeParen) :
    FormsAll tokens args →
      Forms (name :: opened :: tokens ++ [closed])
        (.call name.literal args (name.span.cover closed.span))

-- Expressions with commas between them, at least one.
inductive FormsAll : List Token → List Node → Prop where
  | one {tokens : List Token} {arg : Node} : Forms tokens arg → FormsAll tokens [arg]
  | more {comma : Token} {tokens later : List Token} {arg : Node} {args : List Node}
    (h : comma.kind = .comma) :
    Forms tokens arg → FormsAll later args → FormsAll (tokens ++ comma :: later) (arg :: args)

end

inductive FormsStatement : List Token → Node → Prop where
  | bare {tokens : List Token} {node : Node} : Forms tokens node → FormsStatement tokens node
  | assign {name sign : Token} {tokens : List Token} {value : Node}
    (hname : name.kind.isName = true) (hsign : sign.kind = .assign) :
    Forms tokens value →
      FormsStatement (name :: sign :: tokens)
        (.assign name.literal value (name.span.cover value.span))

inductive FormsScript : List Token → Script → Prop where
  | nil : FormsScript [] []
  | cons {tokens later : List Token} {node : Node} {script : Script} :
    FormsStatement tokens node → FormsScript later script →
      FormsScript (tokens ++ later) (node :: script)

namespace Token

theorem Kind.begins_of_isName {kind : Kind} (h : kind.isName = true) : kind.begins = true := by
  cases kind <;> first | rfl | cases h

theorem Kind.ne_ending_of_isName {kind : Kind} (h : kind.isName = true) : kind ≠ .ending := by
  rintro rfl
  cases h

-- Tokens whose first one can begin an expression, as can a sign.
def Begun (tokens : List Token) : Prop :=
  ∃ first rest, tokens = first :: rest ∧ (first.kind.begins = true ∨ first.kind = .op .sub)

theorem Begun.ne_nil {tokens : List Token} (h : Begun tokens) : tokens ≠ [] := by
  obtain ⟨first, rest, rfl, -⟩ := h
  exact List.cons_ne_nil first rest

theorem Begun.append {tokens : List Token} (h : Begun tokens) (later : List Token) :
    Begun (tokens ++ later) := by
  obtain ⟨first, rest, rfl, hfirst⟩ := h
  exact ⟨first, rest ++ later, rfl, hfirst⟩

end Token

open Token (Begun)

theorem Forms.begun {tokens : List Token} {node : Node} : Forms tokens node → Begun tokens
  | .name h => ⟨_, _, rfl, .inl (Token.Kind.begins_of_isName h)⟩
  | .number h _ => ⟨_, _, rfl, .inl (by rw [h]; rfl)⟩
  | .text h => ⟨_, _, rfl, .inl (by rw [h]; rfl)⟩
  | .group hopened _ _ => ⟨_, _, rfl, .inl (by rw [hopened]; rfl)⟩
  | .negated h _ => ⟨_, _, rfl, .inr h⟩
  | .binary _ hleft _ => hleft.begun.append _
  | .bareCall hname _ _ | .call hname _ _ _ =>
    ⟨_, _, rfl, .inl (Token.Kind.begins_of_isName hname)⟩

theorem FormsAll.begun {tokens : List Token} {args : List Node} (h : FormsAll tokens args) :
    Begun tokens := by
  cases h with
  | one h => exact h.begun
  | more _ h _ => exact h.begun.append _

theorem FormsStatement.begun {tokens : List Token} {node : Node} (h : FormsStatement tokens node) :
    Begun tokens := by
  cases h with
  | bare h => exact h.begun
  | assign hname _ _ => exact ⟨_, _, rfl, .inl (Token.Kind.begins_of_isName hname)⟩

mutual

theorem Forms.ne_ending {tokens : List Token} {node : Node} :
    Forms tokens node → ∀ token ∈ tokens, token.kind ≠ .ending
  | .name hname => by simpa using Token.Kind.ne_ending_of_isName hname
  | .number h _ => by simp [h]
  | .text h => by simp [h]
  | .group hopened hclosed h => by
    simpa [hopened, hclosed, or_imp, forall_and] using h.ne_ending
  | .negated hminus h => by simpa [hminus] using h.ne_ending
  | .binary hsign hleft hright => by
    simpa [hsign, or_imp, forall_and] using And.intro hleft.ne_ending hright.ne_ending
  | .bareCall hname hopened hclosed => by
    simpa [hopened, hclosed] using Token.Kind.ne_ending_of_isName hname
  | .call hname hopened hclosed h => by
    simpa [hopened, hclosed, or_imp, forall_and] using
      And.intro (Token.Kind.ne_ending_of_isName hname) h.ne_ending

theorem FormsAll.ne_ending {tokens : List Token} {args : List Node} :
    FormsAll tokens args → ∀ token ∈ tokens, token.kind ≠ .ending
  | .one h => h.ne_ending
  | .more hcomma h hlater => by
    simpa [hcomma, or_imp, forall_and] using And.intro h.ne_ending hlater.ne_ending

end

-- No token of a statement is an end of the script.
theorem FormsStatement.ne_ending {tokens : List Token} {node : Node}
    (h : FormsStatement tokens node) : ∀ token ∈ tokens, token.kind ≠ .ending := by
  cases h with
  | bare h => exact h.ne_ending
  | assign hname hsign h =>
      simpa [hsign] using And.intro (Token.Kind.ne_ending_of_isName hname) h.ne_ending

theorem FormsScript.begun {tokens : List Token} {script : Script} (h : FormsScript tokens script)
    (hne : tokens ≠ []) : Begun tokens := by
  cases h with
  | nil => exact absurd rfl hne
  | cons h _ => exact h.begun.append _

end CandleScript
