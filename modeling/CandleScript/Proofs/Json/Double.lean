import CandleScript.Proofs.Json.Number
import CandleScript.Proofs.Json.Value
import CandleScript.Proofs.Number.Shortest

namespace CandleScript.Json

open Number (Canonical Decimal Style digitsValue double zero)

-- Only zero is written with a zero in front.
theorem head?_toDigits {n : Nat} (hn : n ≠ 0) : (Nat.toDigits 10 n).head? ≠ some '0' := by
  induction n using Nat.strongRecOn with
  | ind n ih =>
      by_cases hsmall : n < 10
      · have hdigit : ∀ k < 10, k ≠ 0 → k.digitChar ≠ '0' := by decide
        rw [Nat.toDigits_of_lt_base hsmall]
        simpa using hdigit n hsmall hn
      · have hless : n / 10 < n := Nat.div_lt_self (Nat.pos_of_ne_zero hn) (by decide)
        have hsome : Nat.toDigits 10 (n / 10) ≠ [] := Nat.toDigits_ne_nil
        obtain ⟨c, more, hcons⟩ := List.exists_cons_of_ne_nil hsome
        have hhead := ih (n / 10) hless (by omega)
        rw [Nat.toDigits_of_base_le (by decide) (Nat.le_of_not_lt hsmall), hcons]
        rw [hcons] at hhead
        exact hhead

-- The number that a decimal is written as.
structure Writes (d : Decimal) (n : NumberText) : Prop where
  wellFormed : n.WellFormed
  real : n.part.isSome ∨ n.exponent.isSome
  positive : n.negative = false
  chars : n.chars = Style.document.decimal d
  value : n.toDecimal.value = d.value

theorem isDigits_append {ds es : List Char} (hds : IsDigits ds) (hes : ∀ c ∈ es, c.isDigit = true) :
    IsDigits (ds ++ es) := by
  refine ⟨fun h => hds.1 (List.append_eq_nil_iff.mp h).1, ?_⟩
  intro c hc
  rcases List.mem_append.mp hc with hc | hc
  · exact hds.2 c hc
  · exact hes c hc

theorem isDigit_of_mem_zeros {n : Nat} : ∀ c ∈ Number.zeros n, c.isDigit = true := by
  intro c hc
  rw [(List.mem_replicate.mp hc).2]
  rfl

theorem NumberText.chars_point (whole part : List Char) :
    NumberText.chars ⟨false, whole, some part, none⟩ = whole ++ '.' :: part := by
  rw [NumberText.chars, signChars, partChars, exponentChars, if_neg Bool.false_ne_true,
    List.nil_append, List.append_nil]

theorem digitsValue_zero : digitsValue ['0'] = 0 := rfl

theorem digitsValue_zeros (n : Nat) : digitsValue (Number.zeros n) = 0 := by
  induction n with
  | zero => rfl
  | succ n ih =>
      have hsplit : Number.zeros (n + 1) = ['0'] ++ Number.zeros n := rfl
      rw [hsplit, digitsValue_append, ih]
      rfl

-- An exponent mark: one digit in front of the point, the others behind it.
theorem exists_writes_withExponent {d : Decimal} (hmark : Style.document.scientific
    (d.exponent + (Nat.toDigits 10 d.digits).length - 1) = true) : ∃ n, Writes d n := by
  have hdigits := isDigits_toDigits d.digits
  have hvalue := digitsValue_toDigits d.digits
  have htext : Style.document.decimal d = Number.withExponent (Nat.toDigits 10 d.digits)
      (d.exponent + (Nat.toDigits 10 d.digits).length - 1) := by
    rw [Style.decimal]
    exact if_pos hmark
  generalize Nat.toDigits 10 d.digits = digits at *
  cases digits with
  | nil => exact absurd rfl hdigits.1
  | cons c more =>
      have hsplit : ∀ c' ∈ more, c'.isDigit = true := fun c' hc' =>
        hdigits.2 c' (List.mem_cons_of_mem _ hc')
      have hfirst : IsDigits [c] := isDigits_singleton (hdigits.2 c (List.mem_cons_self ..))
      have hexponent : d.exponent + ((c :: more).length : Nat) - 1 = d.exponent + more.length := by
        rw [List.length_cons]
        omega
      rw [hexponent] at htext
      cases more with
      | nil =>
          refine ⟨⟨false, [c], none, some d.exponent⟩,
            ⟨hfirst, fun _ => rfl, fun _ h => absurd h.symm (Option.some_ne_none _)⟩,
            .inr rfl, rfl, ?_, ?_⟩
          · rw [htext, List.length_nil]
            simp [NumberText.chars, signChars, partChars, exponentChars, Number.withExponent]
          · rw [NumberText.toDecimal]
            simp [hvalue]
      | cons c' more =>
          refine ⟨⟨false, [c], some (c' :: more), some (d.exponent + (c' :: more).length)⟩,
            ⟨hfirst, fun _ => rfl, ?_⟩, .inl rfl, rfl, ?_, ?_⟩
          · rintro _ ⟨⟩
            exact ⟨List.cons_ne_nil _ _, hsplit⟩
          · rw [htext]
            simp [NumberText.chars, signChars, partChars, exponentChars, Number.withExponent]
          · rw [NumberText.toDecimal]
            simp only [Option.getD_some, List.singleton_append, hvalue]
            simp

theorem head?_eq_of_positional {d : Decimal} (hzero : d.digits = 0 → d.exponent = 0)
    (hhead : (Nat.toDigits 10 d.digits).head? = some '0') :
    Nat.toDigits 10 d.digits = ['0'] ∧ d.exponent = 0 := by
  by_cases hd : d.digits = 0
  · rw [hd]
    exact ⟨rfl, hzero hd⟩
  · exact absurd hhead (head?_toDigits hd)

-- A whole number: zeros up to the point, and one behind it.
theorem exists_writes_whole {d : Decimal} (hzero : d.digits = 0 → d.exponent = 0)
    (hsign : 0 ≤ d.exponent) (htext : Style.document.decimal d =
      Number.positional true (Nat.toDigits 10 d.digits) d.exponent) : ∃ n, Writes d n := by
  have hvalue := digitsValue_toDigits d.digits
  obtain ⟨k, hk⟩ := Int.eq_ofNat_of_zero_le hsign
  refine ⟨⟨false, Nat.toDigits 10 d.digits ++ Number.zeros k, some ['0'], none⟩,
    ⟨isDigits_append (isDigits_toDigits _) isDigit_of_mem_zeros, ?_, ?_⟩,
    .inl rfl, rfl, ?_, ?_⟩
  · intro hhead
    obtain ⟨hdigits, hexponent⟩ := head?_eq_of_positional hzero (by
      rw [List.head?_append_of_ne_nil _ (isDigits_toDigits _).1] at hhead
      exact hhead)
    obtain rfl : k = 0 := by omega
    rw [hdigits]
    rfl
  · rintro _ ⟨⟩
    exact isDigits_singleton rfl
  · rw [htext, Number.positional, if_pos hsign, hk, Int.toNat_natCast, if_pos rfl,
      NumberText.chars_point]
  · have hlength : (Number.zeros k).length = k := List.length_replicate
    rw [NumberText.toDecimal, Decimal.value, Decimal.value, hk]
    simp only [Option.getD_some, Option.getD_none, digitsValue_append, digitsValue_zeros, hvalue,
      hlength, List.length_singleton, digitsValue_zero]
    have hten : (10 : ℚ) * 10 ^ (0 - ((1 : ℕ) : ℤ)) = 1 := by norm_num
    calc
      ((10 ^ 1 * (10 ^ k * d.digits + 0) + 0 : ℕ) : ℚ) * 10 ^ (0 - ((1 : ℕ) : ℤ)) =
          d.digits * 10 ^ k * (10 * 10 ^ (0 - ((1 : ℕ) : ℤ))) := by
        push_cast
        ring
      _ = d.digits * 10 ^ (k : ℤ) := by rw [hten, mul_one, zpow_natCast]

-- A number with a point among its digits.
theorem exists_writes_split {d : Decimal} (hzero : d.digits = 0 → d.exponent = 0)
    (hsign : ¬0 ≤ d.exponent) (hplaces : (-d.exponent).toNat < (Nat.toDigits 10 d.digits).length)
    (htext : Style.document.decimal d =
      Number.positional true (Nat.toDigits 10 d.digits) d.exponent) : ∃ n, Writes d n := by
  have hvalue := digitsValue_toDigits d.digits
  have hdigits := isDigits_toDigits d.digits
  have hhead := fun hhead => (head?_eq_of_positional hzero hhead).2
  rw [Number.positional, if_neg hsign] at htext
  simp only [if_pos hplaces] at htext
  generalize Nat.toDigits 10 d.digits = digits at *
  generalize hk : digits.length - (-d.exponent).toNat = k at *
  refine ⟨⟨false, digits.take k, some (digits.drop k), none⟩, ⟨⟨?_, ?_⟩, ?_, ?_⟩,
    .inl rfl, rfl, ?_, ?_⟩
  · rw [Ne, List.take_eq_nil_iff]
    exact fun h => h.elim (by omega) hdigits.1
  · exact fun c hc => hdigits.2 c (List.mem_of_mem_take hc)
  · intro hfirst
    rw [List.head?_take, if_neg (by omega)] at hfirst
    exact absurd (hhead hfirst) (by omega)
  · rintro _ ⟨⟩
    refine ⟨?_, fun c hc => hdigits.2 c (List.mem_of_mem_drop hc)⟩
    rw [Ne, List.drop_eq_nil_iff]
    omega
  · rw [htext, NumberText.chars_point]
  · rw [NumberText.toDecimal]
    simp only [Option.getD_some, Option.getD_none, List.take_append_drop, hvalue, List.length_drop]
    congr 2
    omega

-- A number below one: zeros between the point and the digits.
theorem exists_writes_below {d : Decimal} (hsign : ¬0 ≤ d.exponent)
    (hplaces : ¬(-d.exponent).toNat < (Nat.toDigits 10 d.digits).length)
    (htext : Style.document.decimal d =
      Number.positional true (Nat.toDigits 10 d.digits) d.exponent) : ∃ n, Writes d n := by
  have hvalue := digitsValue_toDigits d.digits
  have hdigits := isDigits_toDigits d.digits
  rw [Number.positional, if_neg hsign] at htext
  simp only [if_neg hplaces] at htext
  generalize Nat.toDigits 10 d.digits = digits at *
  generalize hk : (-d.exponent).toNat - digits.length = k at *
  refine ⟨⟨false, ['0'], some (Number.zeros k ++ digits), none⟩,
    ⟨isDigits_singleton rfl, fun _ => rfl, ?_⟩, .inl rfl, rfl, ?_, ?_⟩
  · rintro _ ⟨⟩
    refine ⟨fun h => hdigits.1 (List.append_eq_nil_iff.mp h).2, ?_⟩
    intro c hc
    rcases List.mem_append.mp hc with hc | hc
    · exact isDigit_of_mem_zeros c hc
    · exact hdigits.2 c hc
  · rw [htext, NumberText.chars_point]
    rfl
  · have hlength : (Number.zeros k).length = k := List.length_replicate
    rw [NumberText.toDecimal]
    simp only [Option.getD_some, Option.getD_none, digitsValue_append, digitsValue_zeros, hvalue,
      List.length_append, hlength, digitsValue_zero, Nat.mul_zero, Nat.zero_add]
    congr 2
    omega

theorem exists_writes {d : Decimal} (hzero : d.digits = 0 → d.exponent = 0) : ∃ n, Writes d n := by
  by_cases hmark : Style.document.scientific
      (d.exponent + (Nat.toDigits 10 d.digits).length - 1) = true
  · exact exists_writes_withExponent hmark
  · have htext : Style.document.decimal d =
        Number.positional true (Nat.toDigits 10 d.digits) d.exponent := by
      rw [Style.decimal]
      exact if_neg hmark
    by_cases hsign : 0 ≤ d.exponent
    · exact exists_writes_whole hzero hsign htext
    · by_cases hplaces : (-d.exponent).toNat < (Nat.toDigits 10 d.digits).length
      · exact exists_writes_split hzero hsign hplaces htext
      · exact exists_writes_below hsign hplaces htext

-- Digits behind an optional sign are read back as the number they are the
-- digits of.
theorem readsBack_of_decimal {x : Float} {d : Decimal} (hzero : d.digits = 0 → d.exponent = 0)
    (negative : Bool)
    (htext : (Number.documentText x).toList = signChars negative ++ Style.document.decimal d)
    (hx : (if negative then -d.toFloat else d.toFloat) = x) (hfinite : x.isInf = false) :
    ReadsBack x := by
  obtain ⟨⟨_, whole, part, exponent⟩, hwellFormed, hreal, rfl, hchars, hvalue⟩ :=
    exists_writes hzero
  obtain ⟨n, hn⟩ : ∃ n : NumberText, n = ⟨negative, whole, part, exponent⟩ := ⟨_, rfl⟩
  have hn' : n.WellFormed := by
    rw [hn]
    exact ⟨hwellFormed.whole, hwellFormed.leading, hwellFormed.part⟩
  have hchars' : (Number.documentText x).toList = n.chars := by
    rw [htext, ← hchars, hn]
    rfl
  have hfloat : n.toFloat = x := by
    rw [← hx, ← Decimal.toFloat_congr hvalue, hn]
    rfl
  have hinteger : n.integer? = none := by
    rw [hn]
    exact if_pos hreal
  constructor
  · rw [hchars']
    exact hn'.starts
  · intro rest hrest
    rw [hchars', number_chars hn' hinteger (by rw [hfloat]; exact hfinite) hrest, hfloat]

theorem finite_double (s : Float.Model.UnpackedFloat.Sign) {m : ℕ} {e : ℤ} (h : Canonical m e) :
    Style.document.finite (double s h) = signChars (Number.isNegative (double s h)) ++
      Style.document.decimal (Number.shortest .even (double .positive h)) := by
  rw [Style.finite, signChars]
  simp only [Number.double_beq_zero, Number.abs_double]
  cases Number.isNegative (double s h) <;> rfl

-- The document text of every finite double reads back as that double.
theorem readsBack_of_isFinite {x : Float} (hx : x.isFinite = true) : ReadsBack x := by
  have htext : (Number.documentText x).toList = Style.document.finite x := by
    rw [Number.documentText, if_pos hx, String.toList_ofList]
  rcases Number.zero_or_double hx with ⟨s, rfl⟩ | ⟨s, m, e, h, rfl⟩
  · cases s with
    | positive => exact readsBack_of_decimal (d := ⟨0, 0⟩) (fun _ => rfl) false htext rfl rfl
    | negative => exact readsBack_of_decimal (d := ⟨0, 0⟩) (fun _ => rfl) true htext rfl rfl
  · have hdigits := Number.digits_shortest_ne_zero .even h
    have hreads := Number.toFloat_shortest .even h
    rw [finite_double] at htext
    refine readsBack_of_decimal (fun hzero => absurd hzero hdigits) _ htext ?_
      (Number.isInf_double s h)
    rw [hreads]
    cases s with
    | negative => rw [if_pos ((Number.isNegative_double .negative h).mpr rfl), Number.neg_double]
    | positive =>
        have hsign : Number.isNegative (double .positive h) ≠ true := by
          rw [Ne, Number.isNegative_double]
          exact fun h => Float.Model.UnpackedFloat.Sign.noConfusion h
        rw [if_neg hsign]

end CandleScript.Json
