import CandleScript.Json.Read
import CandleScript.Json.Write

namespace CandleScript.Json

-- A control character is written by the two last of its four digits.
theorem textBody_control (c : Char) (hc : c.toNat < 0x20) (rest : List Char) :
    textBody ('\\' :: 'u' :: '0' :: '0' :: Nat.digitChar (c.toNat / 16) ::
      Nat.digitChar (c.toNat % 16) :: rest) = push c (textBody rest) := by
  have hdigits : ∀ n < 0x20,
      hexUnit? '0' '0' (Nat.digitChar (n / 16)) (Nat.digitChar (n % 16)) = some n := by decide
  have htrailing : isTrailing c.toNat = false := by simp [isTrailing]; omega
  have hleading : isLeading c.toNat = false := by simp [isLeading]; omega
  rw [textBody]
  simp only [hdigits _ hc, htrailing, hleading, Char.ofNat_toNat, Bool.false_eq_true, if_false]

theorem textBody_plain {c : Char} (hquote : c ≠ '"') (hslash : c ≠ '\\')
    (hc : ¬c.toNat < 0x20) (rest : List Char) : textBody (c :: rest) = push c (textBody rest) := by
  rw [textBody, if_neg hc]
  · exact hquote
  all_goals
    intros
    contradiction

theorem textBody_escapeChar (c : Char) (rest : List Char) :
    textBody (escapeChar c ++ rest) = push c (textBody rest) := by
  unfold escapeChar
  split
  · rfl
  · rfl
  · rfl
  · rfl
  · rfl
  · rfl
  · rfl
  · split
    · exact textBody_control c ‹_› rest
    · exact textBody_plain ‹_› ‹_› ‹_› rest

theorem textBody_escaped (cs rest : List Char) :
    textBody (cs.flatMap escapeChar ++ '"' :: rest) = .ok (cs, rest) := by
  induction cs with
  | nil => rfl
  | cons c cs ih =>
      rw [List.flatMap_cons, List.append_assoc, textBody_escapeChar, ih]
      rfl

end CandleScript.Json
