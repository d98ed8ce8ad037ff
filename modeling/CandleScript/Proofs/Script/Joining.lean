import CandleScript.Pipeline
import CandleScript.Proofs.Lexis.Seam
import CandleScript.Proofs.Script.Rereading
import CandleScript.Proofs.Script.Statements
import CandleScript.Proofs.Script.Tokens

namespace CandleScript

namespace Parse

-- What stands behind the tokens of a statement is no part of it.
structure Follows (tokens rest : List Token) : Prop where
  ends : EndsAt 1 tokens rest
  noAssign : nextKind? rest ≠ some .assign

theorem Follows.congr {tokens rest rest' : List Token} (h : Follows tokens rest)
    (hnext : nextKind? rest' = nextKind? rest) : Follows tokens rest' :=
  ⟨h.ends.congr hnext, hnext ▸ h.noAssign⟩

theorem follows_ending (tokens : List Token) {ending : Token} (h : ending.kind = .ending)
    (rest : List Token) : Follows tokens (ending :: rest) := by
  have hnext {kind : Token.Kind} (hkind : nextKind? (ending :: rest) = some kind) :
      kind = .ending := (Option.some.inj hkind).symm.trans h
  refine ⟨⟨?_, ?_⟩, ?_⟩
  · intro op hop
    cases hnext hop
  · intro _ _ _ hopen
    cases hnext hopen
  · intro hassign
    cases hnext hassign

theorem not_assigns_moved {lines : Nat} {used rest rest' : List Token} (hne : used ≠ [])
    (h : ¬Assigns (used ++ rest)) (hnext : nextKind? rest' ≠ some .assign) :
    ¬Assigns (used.map (Token.moved lines) ++ rest') := by
  rintro ⟨name, sign, more, htokens, hname, hsign⟩
  match used with
  | [] => exact hne rfl
  | [first] =>
      obtain ⟨-, rfl⟩ := List.cons.inj htokens
      exact hnext (congrArg some hsign)
  | first :: second :: later =>
      obtain ⟨rfl, hlater⟩ := List.cons.inj htokens
      obtain ⟨rfl, -⟩ := List.cons.inj hlater
      exact h ⟨first, second, later ++ rest, rfl, hname, hsign⟩

-- What a statement takes of the tokens, and how it is read further down.
structure TakenStatement (lines : Nat) (last' : Position) (tokens rest : List Token) (node : Node)
    (used : List Token) : Prop where
  split : tokens = used ++ rest
  forms : FormsStatement used node
  ends : EndsAt 1 used rest
  again : ∀ rest', Follows used rest' →
    statement last' (used.map (Token.moved lines) ++ rest') = .ok (node.moved lines, rest')

theorem rereads_statement (lines : Nat) (last last' : Position) {tokens rest : List Token}
    {node : Node} (h : statement last tokens = .ok (node, rest)) :
    ∃ used, TakenStatement lines last' tokens rest node used := by
  by_cases hassigns : Assigns tokens
  · obtain ⟨name, sign, more, rfl, hname, hsign⟩ := hassigns
    rw [statement, if_pos ⟨hname, hsign⟩] at h
    obtain ⟨parsed, hparsed, hnode⟩ := exists_of_bind_eq_ok h
    cases hnode
    obtain ⟨used, htaken⟩ := rereads_wholeExpression lines last last' more parsed hparsed
    have hne := htaken.forms.begun.ne_nil
    refine ⟨name :: sign :: used, congrArg (name :: sign :: ·) htaken.split,
      .assign hname hsign htaken.forms, htaken.ends.append hne [name, sign], ?_⟩
    intro rest' hrest
    have hread := htaken.again rest' (hrest.ends.of_append [name, sign] hne)
    change statement last' (name.moved lines :: sign.moved lines ::
      (used.map (Token.moved lines) ++ rest')) = _
    rw [statement, if_pos ⟨hname, hsign⟩, hread, Node.moved, ← Span.cover_moved, ← Node.span_moved]
    rfl
  · rw [statement_of_not_assigns last hassigns] at h
    obtain ⟨parsed, hparsed, hnode⟩ := exists_of_bind_eq_ok h
    cases hnode
    obtain ⟨used, htaken⟩ := rereads_wholeExpression lines last last' tokens parsed hparsed
    refine ⟨used, htaken.split, .bare htaken.forms, htaken.ends, ?_⟩
    intro rest' hrest
    have hbare : ¬Assigns (used.map (Token.moved lines) ++ rest') :=
      not_assigns_moved htaken.forms.begun.ne_nil (htaken.split ▸ hassigns) hrest.noAssign
    rw [statement_of_not_assigns last' hbare, bareStatement, htaken.again rest' hrest.ends]
    rfl

theorem beforeEnd_append {tokens : List Token} (h : ∀ token ∈ tokens, token.kind ≠ .ending)
    (rest : List Token) : Token.beforeEnd (tokens ++ rest) = tokens ++ Token.beforeEnd rest :=
  List.takeWhile_append_of_pos (by simpa using h)

-- A statement is followed by the next one, or by what follows the script.
theorem Follows.before {used later rest rest' : List Token} {script : Script}
    (hends : EndsAt 1 used (later ++ rest)) (hlater : FormsScript later script)
    (hlast : later = [] → Follows used rest') (lines : Nat) :
    Follows used (later.map (Token.moved lines) ++ rest') := by
  refine ⟨hends.before (fun hnil => (hlast hnil).ends) lines, ?_⟩
  by_cases hnil : later = []
  · subst hnil
    exact (hlast rfl).noAssign
  · obtain ⟨first, more, rfl, hfirst⟩ := hlater.begun hnil
    intro hassign
    have hkind : first.kind = .assign := Option.some.inj hassign
    rw [hkind] at hfirst
    rcases hfirst with hfirst | hfirst <;> cases hfirst

-- Further down, and in front of what another script is read from, the tokens are
-- read as the statements of a script in front of those of the other one. Every
-- statement takes at least one token, so fuel for all of them lasts to the end.
def Extends (lines : Nat) (last' : Position) (used : List Token) (script : Script) : Prop :=
  ∀ later others, (used ≠ [] → Follows used later) →
    (∀ fuel, later.length ≤ fuel → statements last' fuel later = .ok others) →
    ∀ fuel, used.length + later.length ≤ fuel →
      statements last' fuel (used.map (Token.moved lines) ++ later) =
        .ok (script.map (Node.moved lines) ++ others)

theorem extends_nil (lines : Nat) (last' : Position) : Extends lines last' [] [] := by
  intro later others _ hlater fuel hfuel
  exact hlater fuel (by simpa using hfuel)

theorem TakenStatement.extends {lines : Nat} {last' : Position} {tokens front used rest : List Token}
    {node : Node} {script : Script}
    (h : TakenStatement lines last' tokens (used ++ rest) node front)
    (hforms : FormsScript used script) (hused : Extends lines last' used script) :
    Extends lines last' (front ++ used) (node :: script) := by
  intro later others hfollows hlater fuel hfuel
  have hfront := h.forms.begun.ne_nil
  have hends := hfollows (by simp [hfront])
  have hnext : Follows front (used.map (Token.moved lines) ++ later) := by
    apply Follows.before h.ends hforms
    rintro rfl
    rwa [List.append_nil] at hends
  have hbehind : used ≠ [] → Follows used later := fun hne =>
    ⟨hends.ends.of_append front hne, hends.noAssign⟩
  have hread := h.again _ hnext
  rw [List.map_append, List.append_assoc]
  rw [List.length_append] at hfuel
  obtain ⟨first, more, rfl, -⟩ := h.forms.begun
  rw [List.length_cons] at hfuel
  obtain ⟨fuel, rfl⟩ : ∃ less, fuel = less + 1 := ⟨fuel - 1, by omega⟩
  have hkind : (first.moved lines).kind ≠ .ending := h.forms.ne_ending first List.mem_cons_self
  rw [List.map_cons, List.cons_append] at hread ⊢
  rw [statements, if_neg hkind, hread]
  change (statements last' fuel _ >>= _) = _
  rw [hused later others hbehind hlater fuel (by omega)]
  rfl

theorem rereads_statements (lines : Nat) (last last' : Position) (fuel : Nat) {tokens : List Token}
    {script : Script} (h : statements last fuel tokens = .ok script)
    (hfuel : tokens.length ≤ fuel) :
    FormsScript (Token.beforeEnd tokens) script ∧
      Extends lines last' (Token.beforeEnd tokens) script := by
  induction fuel generalizing tokens script with
  | zero =>
      cases List.length_eq_zero_iff.mp (Nat.le_zero.mp hfuel)
      cases h
      exact ⟨.nil, extends_nil lines last'⟩
  | succ fuel ih =>
      cases tokens with
      | nil =>
          cases h
          exact ⟨.nil, extends_nil lines last'⟩
      | cons token tokens =>
          rw [statements] at h
          split at h
          · rename_i hending
            cases h
            rw [Token.beforeEnd, List.takeWhile_cons_of_neg (by simpa using hending)]
            exact ⟨.nil, extends_nil lines last'⟩
          · obtain ⟨⟨node, rest⟩, hstatement, hrest⟩ := exists_of_bind_eq_ok h
            obtain ⟨others, hothers, hscript⟩ := exists_of_bind_eq_ok hrest
            cases hscript
            obtain ⟨front, htaken⟩ := rereads_statement lines last last' hstatement
            have hlength : rest.length ≤ fuel := by
              have hpos := List.length_pos_iff.mpr htaken.forms.begun.ne_nil
              rw [htaken.split, List.length_append] at hfuel
              omega
            obtain ⟨hforms, hextends⟩ := ih hothers hlength
            rw [htaken.split, beforeEnd_append htaken.forms.ne_ending]
            have hsplit : rest = Token.beforeEnd rest ++ rest.dropWhile _ :=
              List.takeWhile_append_dropWhile.symm
            rw [hsplit] at htaken
            exact ⟨.cons htaken.forms hforms, htaken.extends hforms hextends⟩

-- A script starts with what can begin an expression or with a sign, unless it
-- is over.
theorem nextKind?_of_forms {tokens : List Token} {script : Script}
    (h : FormsScript (Token.beforeEnd tokens) script) {kind : Token.Kind}
    (hnext : nextKind? tokens = some kind) :
    kind.begins = true ∨ kind = .op .sub ∨ kind = .ending := by
  obtain ⟨first, rest, rfl, rfl⟩ := exists_of_nextKind? hnext
  by_cases hending : first.kind = .ending
  · exact .inr (.inr hending)
  · rw [Token.beforeEnd, List.takeWhile_cons_of_pos (by simpa using hending)] at h
    obtain ⟨_, _, hcons, hbegins⟩ := h.begun (List.cons_ne_nil _ _)
    cases hcons
    rcases hbegins with hbegins | hminus
    · exact .inl hbegins
    · exact .inr (.inl hminus)

-- It goes on with no script in front of it, apart from a sign or a bracket.
theorem follows_of_forms {tokens used : List Token} {script : Script}
    (h : FormsScript (Token.beforeEnd tokens) script) (hminus : nextKind? tokens ≠ some (.op .sub))
    (hcall : ∀ token, used.getLast? = some token → token.kind.isName = true →
      nextKind? tokens ≠ some .openParen) : Follows used tokens := by
  refine ⟨⟨?_, hcall⟩, ?_⟩
  · intro op hop
    rcases nextKind?_of_forms h hop with hbegins | hsub | hending
    · cases hbegins
    · exact absurd (hop.trans (congrArg some hsub)) hminus
    · cases hending
  · intro hassign
    rcases nextKind?_of_forms h hassign with hkind | hkind | hkind <;> cases hkind

end Parse

-- What is parsed is formed by the tokens up to the end of the script.
theorem forms_of_parse {tokens : List Token} {script : Script} (h : parse tokens = .ok script) :
    FormsScript (Token.beforeEnd tokens) script :=
  (Parse.rereads_statements 0 _ .start tokens.length h (Nat.le_refl _)).1

-- Scripts that do not go on with each other are parsed one after the other,
-- wherever the second one is moved to.
theorem parse_append {tokens later : List Token} {script others : Script} {ending : Token}
    (h : parse tokens = .ok script) (hlater : parse later = .ok others)
    (hsplit : later = Token.beforeEnd later ++ [ending]) (hending : ending.kind = .ending)
    (hfollows : Parse.Follows (Token.beforeEnd tokens) later) (lines : Nat) :
    parse (Token.beforeEnd tokens ++ later.map (Token.moved lines)) =
      .ok (script ++ others.map (Node.moved lines)) := by
  let joined := Token.beforeEnd tokens ++ later.map (Token.moved lines)
  let last := (joined.getLast?.map Token.position).getD .start
  obtain ⟨-, hfront⟩ := Parse.rereads_statements 0 _ last tokens.length h (Nat.le_refl _)
  obtain ⟨-, hbehind⟩ := Parse.rereads_statements lines _ last later.length hlater (Nat.le_refl _)
  have hendingMoved : (ending.moved lines).kind = .ending := hending
  have hmoved (fuel : Nat) (hfuel : (later.map (Token.moved lines)).length ≤ fuel) :
      Parse.statements last fuel (later.map (Token.moved lines)) =
        .ok (others.map (Node.moved lines)) := by
    have hread := hbehind [ending.moved lines] [] (fun _ => Parse.follows_ending _ hendingMoved [])
      (fun fuel _ => Parse.statements_ending last fuel hendingMoved []) fuel
    rw [hsplit, List.map_append, List.map_singleton] at hfuel ⊢
    rw [List.append_nil] at hread
    apply hread
    simpa using hfuel
  have hread := hfront (later.map (Token.moved lines)) (others.map (Node.moved lines))
    (fun _ => hfollows.congr (Parse.nextKind?_moved lines later)) hmoved joined.length
    (Nat.le_of_eq (List.length_append).symm)
  have htokens : (Token.beforeEnd tokens).map (Token.moved 0) = Token.beforeEnd tokens :=
    List.map_id'' Token.moved_zero _
  have hscript : script.map (Node.moved 0) = script := List.map_id'' Node.moved_zero _
  rw [htokens, hscript] at hread
  exact hread

-- The end is the last token of a source.
theorem exists_ending_of_tokenize {source : String} {tokens : List Token}
    (h : tokenize source = .ok tokens) :
    ∃ ending, tokens = Token.beforeEnd tokens ++ [ending] ∧ ending.kind = .ending := by
  obtain ⟨tiles, -, -, -, htokens, -⟩ := tokenize_tiles h
  refine ⟨.atEnd (.place source.toList), ?_, rfl⟩
  rw [beforeEnd_of_tokenize h]
  rw [htokens, List.dropLast_concat]

-- Two sources are parsed one after the other with a line break between them,
-- unless the second one starts with a minus sign or puts a bracket behind a name.
theorem parseSource_append {first second : String} {script others : Script}
    {tokens later : List Token} (hfirst : parseSource first = .ok script)
    (hsecond : parseSource second = .ok others) (htokens : tokenize first = .ok tokens)
    (hlater : tokenize second = .ok later)
    (hminus : later.head?.map Token.kind ≠ some (.op .sub))
    (hcall : ∀ name, tokens.dropLast.getLast? = some name → name.kind.isName = true →
      later.head?.map Token.kind ≠ some .openParen) :
    parseSource (first ++ "\n" ++ second) =
      .ok (script ++ others.map (Node.moved (first.toList.count '\n' + 1))) := by
  obtain ⟨_, htokens', hparse⟩ := parse_of_parseSource hfirst
  cases htokens.symm.trans htokens'
  obtain ⟨_, hlater', hparseLater⟩ := parse_of_parseSource hsecond
  cases hlater.symm.trans hlater'
  obtain ⟨ending, hsplit, hending⟩ := exists_ending_of_tokenize hlater
  rw [← beforeEnd_of_tokenize htokens] at hcall
  have hfollows : Parse.Follows (Token.beforeEnd tokens) later :=
    Parse.follows_of_forms (forms_of_parse hparseLater) hminus hcall
  rw [parseSource, tokenize_append htokens hlater, ← beforeEnd_of_tokenize htokens]
  simp only [parse_append hparse hparseLater hsplit hending hfollows]

-- The comment ends with its line.
theorem parseSource_append_comment :
    parseSource ("x = (a) // +" ++ "\n" ++ "(b)\nx") =
      .ok [.assign "x" (.name "a" ⟨⟨1, 6⟩, ⟨1, 7⟩⟩) ⟨⟨1, 1⟩, ⟨1, 7⟩⟩,
        .name "b" ⟨⟨2, 2⟩, ⟨2, 3⟩⟩, .name "x" ⟨⟨3, 1⟩, ⟨3, 2⟩⟩] := by
  have htokens : tokenize "x = (a) // +" =
      .ok [⟨.name, "x", ⟨1, 1⟩, 1⟩, ⟨.assign, "=", ⟨1, 3⟩, 1⟩, ⟨.openParen, "(", ⟨1, 5⟩, 1⟩,
        ⟨.name, "a", ⟨1, 6⟩, 1⟩, ⟨.closeParen, ")", ⟨1, 7⟩, 1⟩, ⟨.ending, "", ⟨1, 13⟩, 0⟩] := by
    decide +kernel
  have hlater : tokenize "(b)\nx" =
      .ok [⟨.openParen, "(", ⟨1, 1⟩, 1⟩, ⟨.name, "b", ⟨1, 2⟩, 1⟩, ⟨.closeParen, ")", ⟨1, 3⟩, 1⟩,
        ⟨.name, "x", ⟨2, 1⟩, 1⟩, ⟨.ending, "", ⟨2, 2⟩, 0⟩] := by
    decide +kernel
  have hfirst : parseSource "x = (a) // +" =
      .ok [.assign "x" (.name "a" ⟨⟨1, 6⟩, ⟨1, 7⟩⟩) ⟨⟨1, 1⟩, ⟨1, 7⟩⟩] := rfl
  have hsecond : parseSource "(b)\nx" =
      .ok [.name "b" ⟨⟨1, 2⟩, ⟨1, 3⟩⟩, .name "x" ⟨⟨2, 1⟩, ⟨2, 2⟩⟩] := rfl
  apply parseSource_append hfirst hsecond htokens hlater
  · decide
  · rintro _ ⟨⟩ hname
    cases hname

end CandleScript
