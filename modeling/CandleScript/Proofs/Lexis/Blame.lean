import CandleScript.Proofs.Lexis.Writing

namespace CandleScript

namespace Lexeme

open Token (Kind Denotes)

-- No token is read at the front of a text.
def Unreadable (cs : List Char) : Prop :=
  ∀ text rest kind literal, cs = text ++ rest → Denotes text kind literal →
    ¬kind.EndsBefore rest

-- A character that is no blank and that no token starts with. The signs have
-- the exclamation mark among their first characters.
structure Foreign (c : Char) : Prop where
  blank : Text.isBlank c = false
  letter : Text.isAlphabetic c = false
  underscore : c ≠ '_'
  digit : c.isDigit = false
  quote : c ≠ '"' ∧ c ≠ '\''
  sign : ∀ kind text, Kind.sign? kind = some text → text.head? ≠ some c

variable {c : Char} {cs : List Char} {fault : LexFault}

theorem single_eq_error (h : single c cs = .error fault) :
    symbolKind? c = none ∧ fault = .illegalCharacter c := by
  unfold single at h
  split at h
  · cases h
  · cases h
    exact ⟨by assumption, rfl⟩

theorem symbol_eq_error (h : symbol c cs = .error fault) :
    symbolKind? c = none ∧ fault = .illegalCharacter c ∧
      ∀ d, cs.head? = some d → pairKind? c d = none := by
  cases cs with
  | nil =>
      obtain ⟨hkind, hfault⟩ := single_eq_error h
      exact ⟨hkind, hfault, fun d hd => nomatch hd⟩
  | cons d rest =>
      rw [symbol] at h
      split at h
      · cases h
      · rename_i hnone
        obtain ⟨hkind, hfault⟩ := single_eq_error h
        refine ⟨hkind, hfault, ?_⟩
        rintro _ ⟨⟩
        exact hnone

-- All signs but the one of inequality start with a sign of their own.
theorem starts_of_sign? {kind : Kind} {text : List Char} (h : kind.sign? = some text)
    (hc : text.head? = some c) : c = '!' ∨ symbolKind? c ≠ none := by
  cases kind with
  | op operator =>
      cases operator <;> cases h <;> cases hc <;> decide
  | assign | openParen | closeParen | comma =>
      cases h
      cases hc
      decide
  | name | number | text | ifWord | elseWord | ending => cases h

end Lexeme

-- What a fault says of the character that it blames and of the text behind it.
-- The text of an invalid number is the whole word that starts there.
inductive LexFault.Suits : LexFault → (c : Char) → (after : List Char) → Prop where
  | openString {c : Char} {after : List Char} (h : c = '"' ∨ c = '\'') :
    Suits .unterminatedString c after
  | number {c : Char} {after : List Char} (h : c.isDigit = true) :
    Suits (.invalidNumber (.ofList ((c :: after).takeWhile fun d =>
      Lexeme.isWordChar d || d = '.'))) c after
  | exclamation {after : List Char} (h : after.head? ≠ some '=') :
    Suits (.illegalCharacter '!') '!' after
  | foreign {c : Char} {after : List Char} (h : Lexeme.Foreign c) :
    Suits (.illegalCharacter c) c after

namespace Lexeme

open Token (Kind)

variable {c : Char} {cs : List Char} {fault : LexFault}

theorem suits_of_symbol (h : symbol c cs = .error fault) (hstart : isNameStart c = false)
    (hdigit : c.isDigit = false) (hquote : c ≠ '"' ∧ c ≠ '\'')
    (hblank : Text.isBlank c = false) : fault.Suits c cs := by
  obtain ⟨hkind, rfl, hpair⟩ := symbol_eq_error h
  by_cases hc : c = '!'
  · subst hc
    refine .exclamation fun hhead => ?_
    cases hpair '=' hhead
  · rw [isNameStart, Bool.or_eq_false_iff, decide_eq_false_iff_not] at hstart
    refine .foreign ⟨hblank, hstart.1, hstart.2, hdigit, hquote, ?_⟩
    intro kind text hsign hhead
    rcases starts_of_sign? hsign hhead with hexclamation | hsymbol
    · exact hc hexclamation
    · exact hsymbol hkind

theorem suits_of_read (h : read c cs = .error fault) (hsolid : Solid (c :: cs)) :
    fault.Suits c cs := by
  unfold read at h
  by_cases hstart : isNameStart c = true
  · rw [if_pos hstart] at h
    cases h
  rw [if_neg hstart] at h
  by_cases hdigit : c.isDigit = true
  · rw [if_pos hdigit, number, List.span_eq_takeWhile_dropWhile] at h
    simp only at h
    split at h
    · cases h
    · cases h
      exact .number hdigit
  rw [if_neg hdigit] at h
  by_cases hquote : c = '"' ∨ c = '\''
  · rw [if_pos hquote, string] at h
    split at h
    · cases h
    · cases h
      exact .openString hquote
  · rw [if_neg hquote] at h
    exact suits_of_symbol h (Bool.eq_false_iff.mpr hstart) (Bool.eq_false_iff.mpr hdigit)
      (not_or.mp hquote) (hsolid c cs rfl).1

theorem unreadable_of_read (h : read c cs = .error fault) : Unreadable (c :: cs) := by
  intro text rest kind literal hcs htext hends
  obtain ⟨d, more, hmore, -, hread⟩ := readsAs_of_denotes htext hends
  obtain ⟨rfl, rfl⟩ := List.cons.inj (hcs.trans hmore)
  cases h.symm.trans hread

theorem EndsName.of_append {rest more : List Char} (h : EndsName (rest ++ more)) :
    EndsName rest := by
  rintro d others rfl
  obtain ⟨hword, hdot⟩ := h d (others ++ more) rfl
  exact ⟨hword, fun hstarts => hdot ⟨hstarts.1, startsName_append hstarts.2 more⟩⟩

end Lexeme

namespace Token

open Lexeme (Trivia Unreadable)

-- What ends in front of a text also ends in front of its beginning: where a
-- token looks ahead, it looks for something that goes on with it.
theorem Kind.EndsBefore.of_append {kind : Kind} {rest more : List Char}
    (h : kind.EndsBefore (rest ++ more)) : kind.EndsBefore rest := by
  have hhead {c : Char} (hc : (rest ++ more).head? ≠ some c) : rest.head? ≠ some c := by
    intro hrest
    apply hc
    rw [List.head?_append, hrest, Option.some_or]
  cases kind with
  | name | ifWord | elseWord => exact Lexeme.EndsName.of_append h
  | number =>
      intro c hc
      apply h c
      rw [List.head?_append, hc, Option.some_or]
  | assign => exact hhead h
  | op operator =>
      cases operator with
      | both | either => exact Lexeme.EndsName.of_append h
      | div | gt | lt => exact hhead h
      | add | sub | mul | eq | ne | ge | le => trivial
  | text | openParen | closeParen | comma | ending => trivial

-- Induction on the bound: the tokens in front of the blamed character are read
-- from the text in front of it alone.
theorem blamed_of_listFrom {fuel : Nat} {p : Position} {cs : List Char} {e : LexError}
    (h : listFrom fuel p cs = .error e) :
    ∃ before c after tokens, cs = before ++ c :: after ∧ e.position = p.after before ∧
      Tiled p before tokens ∧ Unreadable (c :: after) ∧ e.fault.Suits c after := by
  induction fuel generalizing p cs with
  | zero => cases h
  | succ fuel ih =>
      rcases listFrom_step fuel p cs with ⟨-, hend⟩ |
        ⟨trivia, c, rest, rfl, htrivia, hsolid, hstep⟩
      · cases hend.symm.trans h
      rw [hstep] at h
      cases hread : Lexeme.read c rest with
      | error fault =>
          rw [hread] at h
          cases h
          exact ⟨trivia, c, rest, _, rfl, rfl, .ending htrivia.atEnd,
            Lexeme.unreadable_of_read hread, Lexeme.suits_of_read hread hsolid⟩
      | ok lexeme =>
          rw [hread] at h
          obtain ⟨htext, hdenotes, hends⟩ := Lexeme.denotes_of_read hread hsolid
          cases hlater : listFrom fuel ((p.after trivia).after lexeme.source) lexeme.rest with
          | ok later =>
              simp only [hlater] at h
              cases h
          | error e' =>
              simp only [hlater] at h
              cases h
              obtain ⟨before, d, after, tokens, hrest, hposition, htiled, hunreadable, hsuits⟩ :=
                ih hlater
              rw [hrest] at htext hends
              refine ⟨trivia ++ (lexeme.source ++ before), d, after, _, ?_, ?_,
                .token htrivia hdenotes hends.of_append htiled, hunreadable, hsuits⟩
              · rw [htext]
                simp
              · rw [hposition, Position.after_append, Position.after_append]

end Token

-- An error blames a character: it gives the character's place, the text in front
-- of it is a script's, no token is read from it on, and the fault suits it.
structure LexError.Blames (e : LexError) (before : List Char) (c : Char) (after : List Char) :
    Prop where
  position : e.position = .place before
  tokens : ∃ tokens, tokenize (.ofList before) = .ok tokens
  unreadable : Lexeme.Unreadable (c :: after)
  suits : e.fault.Suits c after

-- A source that is rejected holds a character that is to blame.
theorem blames_of_tokenize {source : String} {e : LexError} (h : tokenize source = .error e) :
    ∃ before c after, source.toList = before ++ c :: after ∧ e.Blames before c after := by
  obtain ⟨before, c, after, tokens, hsource, hposition, htiled, hunreadable, hsuits⟩ :=
    Token.blamed_of_listFrom h
  refine ⟨before, c, after, hsource, ?_, ⟨tokens, ?_⟩, hunreadable, hsuits⟩
  · rw [hposition, Position.start_after]
  · rw [tokenize_eq_ok_iff, String.toList_ofList]
    exact htiled

-- The string is read to its end before it is found to be open, and the sign in
-- front of it looks ahead at its quote.
theorem blames_of_tokenize_openString :
    ∃ before c after, "x //\n= a<'b\\".toList = before ++ c :: after ∧
      LexError.Blames ⟨.unterminatedString, ⟨2, 5⟩⟩ before c after :=
  blames_of_tokenize (by decide +kernel)

end CandleScript
