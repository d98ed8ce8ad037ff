import CandleScript.Proofs.Lexis.Writing
import CandleScript.Proofs.Script.Moved

namespace CandleScript

namespace Lexeme

-- A line break closes a comment that is open in front of it.
theorem Trivia.line {atEnd : Bool} {trivia later : List Char} (h : Trivia true trivia)
    (hlater : Trivia atEnd later) : Trivia atEnd (trivia ++ '\n' :: later) := by
  induction h with
  | nil => exact .blank isBlank_newline hlater
  | blank hc _ ih => exact .blank hc ih
  | @comment text cs htext _ ih =>
      have hline : '/' :: '/' :: (text ++ '\n' :: cs) ++ '\n' :: later =
          '/' :: '/' :: (text ++ '\n' :: (cs ++ '\n' :: later)) := by simp
      rw [hline]
      exact .comment htext ih
  | lastComment _ htext => exact .comment htext hlater

theorem EndsName.line {rest : List Char} (h : EndsName rest) (later : List Char) :
    EndsName (rest ++ '\n' :: later) := by
  rintro c more hcs
  cases rest with
  | nil =>
      obtain ⟨rfl, rfl⟩ := List.cons.inj hcs
      exact ⟨not_isWordChar_of_isBlank isBlank_newline, fun h => nomatch h.1⟩
  | cons d rest =>
      obtain ⟨rfl, rfl⟩ := List.cons.inj hcs
      obtain ⟨hword, hdot⟩ := h d rest rfl
      refine ⟨hword, fun hstarts => hdot ⟨hstarts.1, ?_⟩⟩
      cases rest with
      | nil =>
          have hnewline : isNameStart '\n' = true := hstarts.2
          cases (isWordChar_of_isNameStart hnewline).symm.trans
            (not_isWordChar_of_isBlank isBlank_newline)
      | cons e rest => exact hstarts.2

end Lexeme

namespace Token

open Lexeme (Trivia)

-- A token that ends in front of a text also ends in front of more lines.
theorem Kind.EndsBefore.line {kind : Kind} {rest : List Char} (h : kind.EndsBefore rest)
    (later : List Char) : kind.EndsBefore (rest ++ '\n' :: later) := by
  cases rest with
  | nil => exact Kind.endsBefore_blank Lexeme.isBlank_newline kind later
  | cons c rest =>
      cases kind with
      | name | ifWord | elseWord => exact Lexeme.EndsName.line h later
      | op operator =>
          cases operator with
          | both | either => exact Lexeme.EndsName.line h later
          | _ => exact h
      | _ => exact h

variable {p : Position} {cs later : List Char} {tokens laterTokens : List Token}

-- A text further down has its tokens further down.
theorem Tiled.moved (h : Tiled p cs tokens) (lines : Nat) :
    Tiled (p.moved lines) cs (tokens.map (Token.moved lines)) := by
  induction h with
  | @ending p trivia htrivia =>
      have hend : (atEnd (p.after trivia)).moved lines = atEnd ((p.moved lines).after trivia) := by
        rw [Position.after_moved]
        rfl
      rw [List.map_singleton, hend]
      exact .ending htrivia
  | token htrivia htext hends _ ih =>
      rw [List.map_cons, ← ofLexeme_moved, ← Position.after_moved]
      apply Tiled.token htrivia htext hends
      rw [Position.after_moved, Position.after_moved]
      exact ih

theorem Tiled.afterTrivia {trivia : List Char} (htrivia : Trivia true trivia)
    (h : Tiled ((p.after trivia).advance '\n') later laterTokens) :
    Tiled p (trivia ++ '\n' :: later) laterTokens := by
  have hplace (more : List Char) :
      p.after (trivia ++ '\n' :: more) = ((p.after trivia).advance '\n').after more :=
    Position.after_append p trivia ('\n' :: more)
  cases h with
  | @ending _ more hmore =>
      rw [← hplace]
      exact .ending (htrivia.line hmore)
  | @token _ more text literal rest kind tokens hmore htext hends hrest =>
      have hcs : trivia ++ '\n' :: (more ++ (text ++ rest)) =
          trivia ++ '\n' :: more ++ (text ++ rest) := by simp
      rw [hcs, ← hplace]
      apply Tiled.token (htrivia.line hmore) htext hends
      rwa [hplace]

theorem Tiled.ne_nil (h : Tiled p cs tokens) : tokens ≠ [] := by
  cases h <;> exact List.cons_ne_nil _ _

-- The end of the first text gives way to the tokens of the second one.
theorem Tiled.append (h : Tiled p cs tokens)
    (hlater : Tiled ((p.after cs).advance '\n') later laterTokens) :
    Tiled p (cs ++ '\n' :: later) (tokens.dropLast ++ laterTokens) := by
  induction h with
  | ending htrivia => exact hlater.afterTrivia htrivia
  | @token p trivia text literal rest kind tokens htrivia htext hends hrest ih =>
      have hcs : trivia ++ (text ++ rest) ++ '\n' :: later =
          trivia ++ (text ++ (rest ++ '\n' :: later)) := by simp
      rw [hcs, List.dropLast_cons_of_ne_nil hrest.ne_nil]
      rw [Position.after_append, Position.after_append] at hlater
      exact .token htrivia htext (hends.line later) (ih hlater)

end Token

-- The second text begins a line below the last line of the first one.
theorem Position.advance_place (before : List Char) :
    (place before).advance '\n' = start.moved (before.count '\n' + 1) := by
  simp only [place, advance, if_true, start, moved, Nat.add_assoc]

theorem tokenize_append {first second : String} {tokens later : List Token}
    (hfirst : tokenize first = .ok tokens) (hsecond : tokenize second = .ok later) :
    tokenize (first ++ "\n" ++ second) =
      .ok (tokens.dropLast ++ later.map (Token.moved (first.toList.count '\n' + 1))) := by
  have htext : (first ++ "\n" ++ second).toList = first.toList ++ '\n' :: second.toList := by
    simp [String.toList_append]
  rw [tokenize_eq_ok_iff] at hfirst hsecond ⊢
  rw [htext]
  apply hfirst.append
  rw [Position.start_after, Position.advance_place]
  exact hsecond.moved _

end CandleScript
