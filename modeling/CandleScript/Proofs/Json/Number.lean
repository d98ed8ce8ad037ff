import CandleScript.Proofs.Json.Reading
import Mathlib.Algebra.Ring.Nat
import Mathlib.Data.List.TakeDrop

namespace CandleScript.Json

open Number (digitsValue spanDigits)

-- At least one character, and only decimal digits.
def IsDigits (ds : List Char) : Prop := ds ≠ [] ∧ ∀ c ∈ ds, c.isDigit = true

theorem isDigits_singleton {c : Char} (hc : c.isDigit = true) : IsDigits [c] :=
  ⟨List.cons_ne_nil _ _, List.forall_mem_singleton.mpr hc⟩

theorem isDigits_toDigits (n : Nat) : IsDigits (Nat.toDigits 10 n) :=
  ⟨Nat.toDigits_ne_nil, fun _ hc => Nat.isDigit_of_mem_toDigits (by decide) (by decide) hc⟩

theorem digitsValue_eq (ds : List Char) : digitsValue ds = Nat.ofDigitChars 10 ds 0 := by
  simp only [digitsValue, Nat.ofDigitChars_eq_foldl, Number.digitValue, Nat.mul_comm]

theorem digitsValue_toDigits (n : Nat) : digitsValue (Nat.toDigits 10 n) = n := by
  rw [digitsValue_eq, Nat.ofDigitChars_ten_toDigits]

theorem digitsValue_append (ds es : List Char) :
    digitsValue (ds ++ es) = 10 ^ es.length * digitsValue ds + digitsValue es := by
  simp only [digitsValue_eq]
  rw [Nat.ofDigitChars_append, Nat.ofDigitChars_eq_ofDigitChars_zero]

-- What may follow digits.
def EndsDigits (rest : List Char) : Prop := ∀ c, rest.head? = some c → c.isDigit = false

theorem Ends.endsDigits {rest : List Char} (h : Ends rest) : EndsDigits rest :=
  fun c hc => (h c hc).1

theorem endsDigits_cons {c : Char} (hc : c.isDigit = false) (rest : List Char) :
    EndsDigits (c :: rest) := by
  rintro _ ⟨⟩
  exact hc

theorem spanDigits_append {ds : List Char} (hds : ∀ c ∈ ds, c.isDigit = true) {rest : List Char}
    (hrest : EndsDigits rest) : spanDigits (ds ++ rest) = (ds, rest) := by
  rw [spanDigits, List.span_eq_takeWhile_dropWhile, List.takeWhile_append_of_pos hds,
    List.dropWhile_append_of_pos hds]
  cases rest with
  | nil => simp
  | cons c more =>
      have hc := hrest c rfl
      simp [hc]

theorem someDigits_append (atEnd : Fault) {ds : List Char} (hds : IsDigits ds) {rest : List Char}
    (hrest : EndsDigits rest) : someDigits atEnd (ds ++ rest) = .ok (ds, rest) := by
  rw [someDigits, spanDigits_append hds.2 hrest]
  obtain ⟨c, more, rfl⟩ := List.exists_cons_of_ne_nil hds.1
  rfl

def signChars (negative : Bool) : List Char := if negative then ['-'] else []

def partChars : Option (List Char) → List Char
  | none => []
  | some part => '.' :: part

def exponentChars : Option Int → List Char
  | none => []
  | some e => 'e' :: (if e < 0 then '-' else '+') :: Nat.toDigits 10 e.natAbs

-- The text of a number, with the sign of an exponent written out.
def NumberText.chars (n : NumberText) : List Char :=
  signChars n.negative ++ (n.whole ++ (partChars n.part ++ exponentChars n.exponent))

-- Digits where digits are due, and no zero in front of others.
structure NumberText.WellFormed (n : NumberText) : Prop where
  whole : IsDigits n.whole
  leading : n.whole.head? = some '0' → n.whole.length = 1
  part : ∀ part, n.part = some part → IsDigits part

theorem NumberText.WellFormed.starts {n : NumberText} (hn : n.WellFormed) :
    ∃ c more, n.chars = c :: more ∧ (c = '-' ∨ c.isDigit) := by
  rw [NumberText.chars]
  cases n.negative with
  | true => exact ⟨'-', _, rfl, .inl rfl⟩
  | false =>
      obtain ⟨c, more, hcons⟩ := List.exists_cons_of_ne_nil hn.whole.1
      rw [hcons]
      exact ⟨c, _, rfl, .inr (hn.whole.2 c (hcons ▸ List.mem_cons_self ..))⟩

theorem exponentDigits_append (atEnd : Fault) (exponent : Option Int) {rest : List Char}
    (hrest : Ends rest) :
    exponentDigits atEnd (exponentChars exponent ++ rest) = .ok (exponent, rest) := by
  cases exponent with
  | none =>
      cases rest with
      | nil => rfl
      | cons c more =>
          have hc := hrest c rfl
          rw [exponentChars, List.nil_append, exponentDigits, if_neg (by simp [hc])]
  | some e =>
      have hsome := someDigits_append atEnd (isDigits_toDigits e.natAbs) hrest.endsDigits
      rw [exponentChars, List.cons_append, List.cons_append, exponentDigits, if_pos (.inl rfl)]
      by_cases hneg : e < 0
      · simp only [hneg, if_true, Number.readSign]
        rw [hsome]
        change Except.ok (some (-(digitsValue (Nat.toDigits 10 e.natAbs) : Int)), rest) = _
        rw [digitsValue_toDigits, ← Int.eq_neg_natAbs_of_nonpos (Int.le_of_lt hneg)]
      · simp only [hneg, if_false, Number.readSign]
        rw [hsome]
        change Except.ok (some (digitsValue (Nat.toDigits 10 e.natAbs) : Int), rest) = _
        rw [digitsValue_toDigits, Int.natAbs_of_nonneg (Int.not_lt.mp hneg)]

theorem endsDigits_exponentChars (exponent : Option Int) {rest : List Char} (hrest : Ends rest) :
    EndsDigits (exponentChars exponent ++ rest) := by
  cases exponent with
  | none => exact hrest.endsDigits
  | some e => exact endsDigits_cons rfl _

theorem partDigits_append (atEnd : Fault) {part : Option (List Char)} (exponent : Option Int)
    (hpart : ∀ ds, part = some ds → IsDigits ds) {rest : List Char} (hrest : Ends rest) :
    partDigits atEnd (partChars part ++ (exponentChars exponent ++ rest)) =
      .ok (part, exponentChars exponent ++ rest) := by
  cases part with
  | some ds =>
      have hsome := someDigits_append atEnd (hpart ds rfl) (endsDigits_exponentChars exponent hrest)
      rw [partChars, List.cons_append, partDigits, hsome]
      rfl
  | none =>
      rw [partChars, List.nil_append]
      cases exponent with
      | some e => rfl
      | none =>
          cases rest with
          | nil => rfl
          | cons c more =>
              have hc := hrest c rfl
              rw [exponentChars, List.nil_append, partDigits]
              intro _ h
              exact hc.2.1 (List.cons.inj h).1

theorem wholeDigits_append (atEnd : Fault) {whole : List Char} (hdigits : IsDigits whole)
    (hleading : whole.head? = some '0' → whole.length = 1) {rest : List Char}
    (hrest : EndsDigits rest) : wholeDigits atEnd (whole ++ rest) = .ok (whole, rest) := by
  rw [wholeDigits, someDigits_append atEnd hdigits hrest]
  change (if whole.head? = some '0' ∧ whole.length ≠ 1 then _ else _) = _
  exact if_neg fun h => h.2 (hleading h.1)

theorem endsDigits_partChars (part : Option (List Char)) (exponent : Option Int)
    {rest : List Char} (hrest : Ends rest) :
    EndsDigits (partChars part ++ (exponentChars exponent ++ rest)) := by
  cases part with
  | none => exact endsDigits_exponentChars exponent hrest
  | some ds => exact endsDigits_cons rfl _

theorem numberText_chars (atEnd : Fault) {n : NumberText} (hn : n.WellFormed) {rest : List Char}
    (hrest : Ends rest) : numberText atEnd (n.chars ++ rest) = .ok (n, rest) := by
  obtain ⟨negative, whole, part, exponent⟩ := n
  obtain ⟨hdigits, hleading, hparts⟩ := hn
  simp only at hdigits hleading hparts
  have hwhole := wholeDigits_append atEnd hdigits hleading
    (endsDigits_partChars part exponent hrest)
  have hpart := partDigits_append atEnd exponent hparts hrest
  have hexponent := exponentDigits_append atEnd exponent hrest
  simp only [NumberText.chars, List.append_assoc]
  cases negative with
  | true =>
      rw [signChars, if_pos rfl, List.singleton_append, numberText]
      simp only [hwhole, ok_bind, hpart, hexponent]
      rfl
  | false =>
      rw [signChars, if_neg Bool.false_ne_true, List.nil_append, numberText]
      · simp only [hwhole, ok_bind, hpart, hexponent]
        rfl
      · intro _ htext
        obtain ⟨d, more, rfl⟩ := List.exists_cons_of_ne_nil hdigits.1
        have hd := hdigits.2 d (List.mem_cons_self ..)
        rw [(List.cons.inj htext).1] at hd
        contradiction

-- A number with a point or an exponent is never taken for a whole one.
theorem number_chars {n : NumberText} (hn : n.WellFormed) (hreal : n.integer? = none)
    (hfinite : n.toFloat.isInf = false) {rest : List Char} (hrest : Ends rest) :
    number (n.chars ++ rest) = .ok (.real n.toFloat, rest) := by
  rw [number, numberText_chars .truncated hn hrest, ok_bind]
  simp only [NumberText.toJson, hreal, hfinite]
  rfl

end CandleScript.Json
