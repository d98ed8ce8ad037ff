import CandleScript.Proofs.Script.ReadBack
import Mathlib.Data.List.Chain

namespace CandleScript

namespace Parse

open Token (Say say_cons_iff say_append_iff word?_eq_sign_iff)

-- What stands behind a statement is no part of it.
structure Stops (words : List Word) (rest : List Token) : Prop where
  settled : Settled 1 rest
  noAssign : nextKind? rest ≠ some .assign
  noCall : NoCall words rest

-- A sign of assignment behind a name in front.
def Assigns (tokens : List Token) : Prop :=
  ∃ name sign rest, tokens = name :: sign :: rest ∧ name.kind.isName = true ∧ sign.kind = .assign

theorem statement_of_not_assigns (last : Position) {tokens : List Token} (h : ¬Assigns tokens) :
    statement last tokens = bareStatement last tokens := by
  unfold statement
  split
  · rename_i name sign rest
    rw [if_neg fun hassign => h ⟨name, sign, rest, rfl, hassign.1, hassign.2⟩]
  · rfl

theorem statement_eq_bare (last : Position) {tokens : List Token}
    (h : nextKind? tokens.tail ≠ some .assign) : statement last tokens = bareStatement last tokens := by
  apply statement_of_not_assigns
  rintro ⟨name, sign, rest, rfl, -, hsign⟩
  exact h (congrArg some hsign)

theorem statement?_of_expression? {node : Node} {e : Expression} (h : node.expression? = some e) :
    node.statement? = some (.bare e) := by
  cases node with
  | assign => cases h
  | _ =>
    rw [Node.statement?, h, Option.map_some]
    nofun

theorem wholeExpression_readBack {e : Expression} (last : Position) {tokens rest : List Token}
    (hsay : Say tokens e.words) (hheight : e.height ≤ maxNesting) (hnesting : e.nesting ≤ maxNesting)
    (hstops : Stops e.words rest) :
    ∃ node, node.expression? = some e ∧
      wholeExpression last (tokens ++ rest) = .ok ⟨node, e.height, rest⟩ :=
  (readsBack e).whole hsay hheight hnesting hstops.settled hstops.noCall

-- No assignment sign is taken for one that follows the first token.
theorem nextKind?_tail_ne_assign {e : Expression} {tokens rest : List Token}
    (hsay : Say tokens e.words) (hrest : nextKind? rest ≠ some .assign) :
    nextKind? (tokens ++ rest).tail ≠ some .assign := by
  obtain ⟨word, later, hwords, -⟩ := e.begun_words
  have hassign := e.assign_notMem_words
  rw [hwords] at hsay hassign
  obtain ⟨first, others, rfl, -, hothers⟩ := say_cons_iff.mp hsay
  rw [List.cons_append, List.tail_cons]
  cases later with
  | nil =>
      cases List.map_eq_nil_iff.mp hothers
      exact hrest
  | cons second later =>
      obtain ⟨token, more, rfl, hsecond, -⟩ := say_cons_iff.mp hothers
      intro hkind
      have hword : token.word? = some .assign := (word?_eq_sign_iff rfl).mpr (Option.some.inj hkind)
      cases hsecond.symm.trans hword
      simp at hassign

theorem statement_readBack (s : Statement) (last : Position) {tokens rest : List Token}
    (hsay : Say tokens s.words) (hheight : s.value.height ≤ maxNesting)
    (hnesting : s.value.nesting ≤ maxNesting) (hstops : Stops s.words rest) :
    ∃ node, node.statement? = some s ∧ statement last (tokens ++ rest) = .ok (node, rest) := by
  cases s with
  | bare e =>
      have htail := nextKind?_tail_ne_assign hsay hstops.noAssign
      obtain ⟨node, hnode, hread⟩ := wholeExpression_readBack last hsay hheight hnesting hstops
      refine ⟨node, statement?_of_expression? hnode, ?_⟩
      rw [statement_eq_bare last htail, bareStatement, hread]
      rfl
  | assign target e =>
      obtain ⟨name, more, rfl, hname, hmore⟩ := say_cons_iff.mp hsay
      obtain ⟨sign, value, rfl, hsign, hvalue⟩ := say_cons_iff.mp hmore
      obtain ⟨hisName, rfl⟩ := Token.word?_eq_name_iff.mp hname
      have hkind := (word?_eq_sign_iff rfl).mp hsign
      have hcall : NoCall e.words rest :=
        hstops.noCall.of_append [.name name.literal, .assign] e.begun_words.ne_nil
      obtain ⟨node, hnode, hread⟩ := wholeExpression_readBack last hvalue hheight hnesting
        ⟨hstops.settled, hstops.noAssign, hcall⟩
      refine ⟨.assign name.literal node (name.span.cover node.span), ?_, ?_⟩
      · rw [Node.statement?, hnode, Option.map_some]
      · have htokens : name :: sign :: value ++ rest = name :: sign :: (value ++ rest) := rfl
        rw [htokens, statement, if_pos ⟨hisName, hkind⟩, hread]
        rfl

-- The end of a script and the first word of a statement stop the statement in
-- front of them.
theorem stops_of_clear {s : Statement} {script : List Statement} {tokens : List Token}
    {ending : Token} (hclear : (s :: script).IsChain Statement.Clear)
    (hsay : Say tokens (script.flatMap Statement.words)) (hending : ending.kind = .ending) :
    Stops s.words (tokens ++ [ending]) := by
  cases script with
  | nil =>
      cases List.map_eq_nil_iff.mp hsay
      have hnext : ∀ kind, kind ≠ .ending → nextKind? ([] ++ [ending]) ≠ some kind :=
        fun kind hkind h => hkind ((Option.some.inj h).symm.trans hending)
      exact ⟨fun op hop => absurd hop (hnext _ Token.Kind.noConfusion),
        hnext _ Token.Kind.noConfusion, fun _ _ => hnext _ Token.Kind.noConfusion⟩
  | cons next more =>
      obtain ⟨word, later, hwords, hbegins⟩ := next.begun_words
      rw [List.flatMap_cons, hwords] at hsay
      obtain ⟨first, others, rfl, hfirst, -⟩ := say_cons_iff.mp hsay
      have hnext : ∀ kind : Token.Kind, kind.begins = false →
          nextKind? (first :: others ++ [ending]) ≠ some kind := fun _ hkind h =>
        Token.Kind.ne_of_begins (Token.begins_of_word? hfirst hbegins) hkind (Option.some.inj h)
      refine ⟨fun op hop => absurd hop (hnext _ rfl), hnext _ rfl, fun name hname hopen => ?_⟩
      have hword : first.word? = some .openParen :=
        (word?_eq_sign_iff rfl).mpr (Option.some.inj hopen)
      cases hfirst.symm.trans hword
      exact (List.isChain_cons_cons.mp hclear).1 name hname (congrArg List.head? hwords)

theorem statements_ending (last : Position) (fuel : Nat) {ending : Token}
    (h : ending.kind = .ending) (rest : List Token) :
    statements last fuel (ending :: rest) = .ok [] := by
  cases fuel with
  | zero => rfl
  | succ fuel => rw [statements, if_pos h]

theorem statements_readBack (last : Position) {ending : Token} (hending : ending.kind = .ending)
    {script : List Statement} (hheight : ∀ s ∈ script, s.value.height ≤ maxNesting)
    (hnesting : ∀ s ∈ script, s.value.nesting ≤ maxNesting)
    (hclear : script.IsChain Statement.Clear) (fuel : Nat) {tokens : List Token}
    (hsay : Say tokens (script.flatMap Statement.words)) (hfuel : tokens.length ≤ fuel) :
    ∃ nodes, statements last fuel (tokens ++ [ending]) = .ok nodes ∧
      nodes.map Node.statement? = script.map some := by
  induction script generalizing fuel tokens with
  | nil =>
      cases List.map_eq_nil_iff.mp hsay
      exact ⟨[], statements_ending last fuel hending [], rfl⟩
  | cons s more ih =>
      rw [List.flatMap_cons] at hsay
      obtain ⟨front, later, rfl, hfront, hlater⟩ := say_append_iff.mp hsay
      obtain ⟨node, hnode, hread⟩ := statement_readBack s last hfront
        (hheight s List.mem_cons_self) (hnesting s List.mem_cons_self)
        (stops_of_clear hclear hlater hending)
      obtain ⟨first, others, rfl, hfirst⟩ := hfront.exists_cons_of_begun s.begun_words
      have hkind : first.kind ≠ .ending := Token.Kind.ne_of_begins hfirst rfl
      rw [List.length_append, List.length_cons] at hfuel
      obtain ⟨fuel, rfl⟩ : ∃ rest, fuel = rest + 1 := ⟨fuel - 1, by omega⟩
      obtain ⟨nodes, hnodes, hall⟩ := ih (fun s hs => hheight s (List.mem_cons_of_mem _ hs))
        (fun s hs => hnesting s (List.mem_cons_of_mem _ hs)) hclear.tail fuel hlater (by omega)
      refine ⟨node :: nodes, ?_, ?_⟩
      · have htokens : first :: others ++ later ++ [ending] =
            first :: (others ++ (later ++ [ending])) := by simp
        rw [htokens, statements, if_neg hkind, ← List.cons_append, hread]
        simp only [bind, Except.bind, hnodes]
        rfl
      · rw [List.map_cons, List.map_cons, hnode, hall]

end Parse

-- Written with the fewest brackets, statements are read back, without anything
-- between them.
theorem parse_written (statements : List Statement) (tokens : List Token) (ending : Token)
    (hsay : Token.Say tokens (statements.flatMap Statement.words))
    (hending : ending.kind = .ending)
    (hheight : ∀ s ∈ statements, s.value.height ≤ maxNesting)
    (hnesting : ∀ s ∈ statements, s.value.nesting ≤ maxNesting)
    (hclear : statements.IsChain Statement.Clear) :
    ∃ script, parse (tokens ++ [ending]) = .ok script ∧
      script.map Node.statement? = statements.map some := by
  apply Parse.statements_readBack _ hending hheight hnesting hclear _ hsay
  rw [List.length_append]
  exact Nat.le_add_right _ _

-- `x = (a - (b - 2)) * f(g(), "t") (x or a) and b x`
def bracketStatements : List Statement :=
  [.assign "x" (.binary .mul
      (.binary .sub (.name "a") (.binary .sub (.name "b") (.number 2.0)))
      (.call "f" [.call "g" [], .text "t"])),
    .bare (.binary .both (.binary .either (.name "x") (.name "a")) (.name "b")),
    .bare (.name "x")]

def bracketTokens : List Token :=
  [(.name, "x"), (.assign, "="), (.openParen, "("), (.name, "a"), (.op .sub, "-"), (.openParen, "("),
    (.name, "b"), (.op .sub, "-"), (.number, "2"), (.closeParen, ")"), (.closeParen, ")"),
    (.op .mul, "*"), (.name, "f"), (.openParen, "("), (.name, "g"), (.openParen, "("),
    (.closeParen, ")"), (.comma, ","), (.text, "t"), (.closeParen, ")"), (.openParen, "("),
    (.name, "x"), (.op .either, "or"), (.name, "a"), (.closeParen, ")"), (.op .both, "and"),
    (.name, "b"), (.name, "x")].map fun (kind, literal) => ⟨kind, literal, .start, 1⟩

theorem parse_written_brackets :
    ∃ script, parse (bracketTokens ++ [⟨.ending, "", .start, 1⟩]) = .ok script ∧
      script.map Node.statement? = bracketStatements.map some := by
  apply parse_written
  · rfl
  · rfl
  · decide
  · decide
  · refine .cons_cons ?_ (.cons_cons ?_ (.singleton _))
    · rintro name ⟨⟩
    · rintro name _ ⟨⟩

end CandleScript
