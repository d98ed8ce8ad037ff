import CandleScript.Proofs.Lexis.Tiling
import CandleScript.Proofs.Script.Word

namespace CandleScript

namespace Token

theorem Kind.ofWord_ne_number (word : String) : ofWord word ≠ .number := by
  unfold ofWord ofWord?
  repeat' split
  all_goals decide

-- Only numbers that a double can hold are taken for numbers.
theorem Denotes.isFiniteNumber {text literal : List Char} {kind : Kind}
    (h : Denotes text kind literal) (hkind : kind = .number) :
    Lexeme.isFiniteNumber literal = true := by
  cases h with
  | word _ => exact absurd hkind (Kind.ofWord_ne_number _)
  | number _ hfinite => exact hfinite
  | quoted _ _ => cases hkind
  | sign hsign =>
      subst hkind
      cases hsign

-- A number token stands for a finite double.
def FiniteNumber (token : Token) : Prop :=
  token.kind = .number → Lexeme.isFiniteNumber token.literal.toList = true

theorem FiniteNumber.isFinite {token : Token} (h : token.FiniteNumber)
    (hkind : token.kind = .number) {value : Float} (hread : Number.read token.literal.toList = .ok value) :
    value.isFinite = true := by
  have hfinite := h hkind
  rw [Lexeme.isFiniteNumber, hread] at hfinite
  exact hfinite

theorem finiteNumber_of_tiled {p : Position} {cs : List Char} {tokens : List Token}
    (h : Tiled p cs tokens) : ∀ token ∈ tokens, token.FiniteNumber := by
  induction h with
  | ending _ =>
      rw [List.forall_mem_singleton]
      rintro ⟨⟩
  | token _ htext _ _ ih =>
      rw [List.forall_mem_cons]
      refine ⟨fun hkind => ?_, ih⟩
      rw [ofLexeme, String.toList_ofList]
      exact htext.isFiniteNumber hkind

-- Only the last token is an end of the script.
theorem beforeEnd_of_tiled {p : Position} {cs : List Char} {tokens : List Token}
    (h : Tiled p cs tokens) : beforeEnd tokens = tokens.dropLast := by
  induction h with
  | ending _ => rfl
  | @token _ _ _ _ _ _ tokens _ htext _ hlater ih =>
      have hne : tokens ≠ [] := by cases hlater <;> exact List.cons_ne_nil _ _
      rw [beforeEnd, List.takeWhile_cons_of_pos (by simpa [ofLexeme] using htext.kind_ne_ending),
        List.dropLast_cons_of_ne_nil hne, ← ih, beforeEnd]

end Token

theorem beforeEnd_of_tokenize {source : String} {tokens : List Token}
    (h : tokenize source = .ok tokens) : Token.beforeEnd tokens = tokens.dropLast :=
  Token.beforeEnd_of_tiled (tokenize_eq_ok_iff.mp h)

theorem finiteNumber_of_tokenize {source : String} {tokens : List Token}
    (h : tokenize source = .ok tokens) : ∀ token ∈ tokens, token.FiniteNumber :=
  Token.finiteNumber_of_tiled (tokenize_eq_ok_iff.mp h)

end CandleScript
