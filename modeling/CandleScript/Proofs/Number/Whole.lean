import CandleScript.Number.Arithmetic
import CandleScript.Proofs.Json.Number
import CandleScript.Proofs.Lexis.Classes
import CandleScript.Proofs.Number.Finite
import CandleScript.Text.Trim

namespace CandleScript

namespace Text

-- Nothing is dropped of a text without blanks.
theorem trimChars_of_not_isBlank {cs : List Char} (h : ∀ c ∈ cs, isBlank c = false) :
    trimChars cs = cs := by
  have hkeep {ds : List Char} (hds : ∀ c ∈ ds, isBlank c = false) : ds.dropWhile isBlank = ds := by
    apply List.dropWhile_eq_self_iff.mpr
    intro hlength hblank
    cases (hds _ (List.getElem_mem hlength)).symm.trans hblank
  have hreverse : ∀ c ∈ cs.reverse, isBlank c = false := fun c hc => h c (List.mem_reverse.mp hc)
  rw [trimChars, trimStart, hkeep h, trimEnd, hkeep hreverse, List.reverse_reverse]

end Text

namespace Number

open Float.Model Float.Model.UnpackedFloat

-- The place of the last of 53 binary digits.
def unit (n : ℕ) : ℕ := 2 ^ (n.log2 - 52)

-- A number to 53 binary digits: the nearest multiple of its unit and, halfway
-- between two of them, the even one.
def rounded (n : ℕ) : ℕ :=
  let whole := n / unit n
  if 2 * (n % unit n) < unit n then whole * unit n
  else if unit n < 2 * (n % unit n) then (whole + 1) * unit n
  else (whole + whole % 2) * unit n

theorem unit_pos (n : ℕ) : 0 < unit n := Nat.two_pow_pos _

theorem unit_dvd_rounded (n : ℕ) : unit n ∣ rounded n := by
  unfold rounded
  dsimp only
  split
  · exact Nat.dvd_mul_left _ _
  · split <;> exact Nat.dvd_mul_left _ _

-- Nothing is lost of a number that has 53 binary digits and zeros behind them.
theorem rounded_eq_self_iff (n : ℕ) : rounded n = n ↔ unit n ∣ n := by
  constructor
  · intro h
    rw [← h]
    exact h.symm ▸ unit_dvd_rounded n
  · intro h
    rw [rounded, Nat.mod_eq_zero_of_dvd h, Nat.mul_zero, if_pos (unit_pos n)]
    exact Nat.div_mul_cancel h

theorem unit_eq_one {n : ℕ} (h : n < 2 ^ 53) : unit n = 1 := by
  have hlog : n.log2 - 52 = 0 := by
    by_cases hn : n = 0
    · rw [hn]
      rfl
    · have hlog := (Nat.log2_lt hn).mpr h
      omega
  rw [unit, hlog, pow_zero]

theorem rounded_of_lt {n : ℕ} (h : n < 2 ^ 53) : rounded n = n := by
  rw [rounded_eq_self_iff, unit_eq_one h]
  exact Nat.one_dvd n

-- The largest count is the only one that is met again by being cut down to it.
theorem min_rounded_eq_self_iff {n : ℕ} (hlt : n < 2 ^ 64) :
    min (rounded n) (2 ^ 64 - 1) = n ↔ unit n ∣ n ∨ n = 2 ^ 64 - 1 := by
  constructor
  · intro h
    rcases min_choice (rounded n) (2 ^ 64 - 1) with hrounded | hlargest
    · exact .inl ((rounded_eq_self_iff n).mp (hrounded.symm.trans h))
    · exact .inr (h.symm.trans hlargest)
  · rintro (hunit | rfl)
    · rw [(rounded_eq_self_iff n).mpr hunit, min_eq_left (by omega)]
    · decide +kernel

-- The rounding of doubles does to a fraction what is done here to its numerator.
theorem roundedMantissa_ofFraction (n : ℕ) :
    (ExtendedMantissa.ofMantissaAndAccuracy (n / unit n)
      (accuracyOfFraction (n % unit n) (unit n))).roundedMantissa * unit n = rounded n := by
  have hunit := unit_pos n
  rw [rounded, accuracyOfFraction]
  by_cases hzero : n % unit n = 0
  · simp only [hzero, Nat.mul_zero, hunit, if_true]
    rfl
  · rw [if_neg hzero]
    rcases lt_trichotomy (2 * (n % unit n)) (unit n) with hless | heq | hmore
    · simp only [Nat.compare_eq_lt.mpr hless, hless, if_true]
      rfl
    · rw [Nat.compare_eq_eq.mpr heq, heq, if_neg (lt_irrefl _), if_neg (lt_irrefl _)]
      rfl
    · simp only [Nat.compare_eq_gt.mpr hmore, hmore, not_lt_of_gt hmore, if_true, if_false]
      rfl

-- A rounded mantissa that is a double is not rounded any further.
theorem finishRounding_eq {q : ℚ} (hq : 0 < q) {em : ExtendedMantissa}
    (hem : Holds em (q / 2 ^ lastBit q)) {m : ℕ} {e : ℤ} (h : Canonical m e)
    (hvalue : (em.roundedMantissa * 2 ^ lastBit q : ℚ) = m * 2 ^ e) :
    finishRounding em (lastBit q) = .finite .positive m e h.pos := by
  have hexact : Holds (.ofMantissaAndAccuracy em.roundedMantissa .exact)
      ((em.roundedMantissa * 2 ^ lastBit q : ℚ) / 2 ^ lastBit q) := by
    rw [mul_div_cancel_right₀ _ (zpow_pos two_pos _).ne']
    exact .exact _
  obtain ⟨last, hshift, hlast⟩ := exists_shiftToTargetExponent (hvalue ▸ h.value_pos) hexact
    (le_lastBit_rounded hq hem)
  rw [hvalue, h.lastBit_eq] at hshift hlast
  rw [mul_div_cancel_right₀ _ (zpow_pos two_pos _).ne'] at hlast
  rw [finishRounding, hshift, hlast.unique (.exact m)]
  exact dif_neg h.pos.ne'

theorem lastBit_natCast {n : ℕ} (hn : 2 ^ 53 ≤ n) : lastBit n = (n.log2 - 52 : ℕ) := by
  have hpos : n ≠ 0 := by omega
  have hlog : 53 ≤ n.log2 := (Nat.le_log2 hpos).mpr hn
  have hvalue : (n : ℚ) / 2 ^ (0 : ℤ) = n := by rw [zpow_zero, div_one]
  have hint := log_eq_of_mantissa (q := n) (e := 0) hpos hvalue.ge
    (hvalue.trans_lt (lt_add_one _))
  rw [lastBit, hint]
  omega

theorem div_unit_lt (n : ℕ) : n / unit n < 2 ^ 53 := by
  apply Nat.div_lt_of_lt_mul
  rw [unit, ← pow_add]
  exact Nat.lt_log2_self.trans_le (Nat.pow_le_pow_right two_pos (by omega))

-- Rounding up may lead to the next power of two, which is a double, too.
theorem exists_canonical {r k : ℕ} (hlow : 2 ^ 52 ≤ r) (hhigh : r ≤ 2 ^ 53) (hk : k ≤ 970) :
    ∃ m e, ∃ _ : Canonical m e, (r * 2 ^ (k : ℤ) : ℚ) = m * 2 ^ e := by
  rcases hhigh.lt_or_eq with hless | rfl
  · have hlog : r.log2 = 52 := (Nat.log2_eq_iff (by omega)).mpr ⟨hlow, hless⟩
    exact ⟨r, k, ⟨by omega, by omega, by omega, by omega, .inl hlog⟩, rfl⟩
  · have hlog : (2 ^ 52).log2 = 52 := Nat.log2_two_pow
    refine ⟨2 ^ 52, k + 1, ⟨by omega, by omega, by omega, by omega, .inl hlog⟩, ?_⟩
    rw [zpow_add_one₀ two_ne_zero]
    push_cast
    ring

section

variable {n : ℕ}

-- Fewer than 54 binary digits are a double as they are.
theorem exists_double_of_lt (hn : 0 < n) (hsmall : n < 2 ^ 53) :
    ∃ m e, ∃ h : Canonical m e, Float.ofNat n = double .positive h ∧ (m * 2 ^ e : ℚ) = n := by
  have hlog := (Nat.log2_lt hn.ne').mpr hsmall
  have hcanonical : Canonical (n * 2 ^ (52 - n.log2)) (0 + n.log2 - 52) :=
    canonical_full hn (by omega) (by omega) (by omega)
  have hvalue : ((n * 2 ^ (52 - n.log2) : ℕ) * 2 ^ (0 + n.log2 - 52 : ℤ) : ℚ) = n := by
    rw [value_full (by omega), zpow_zero, mul_one]
  have hdecimal : Decimal.value ⟨n, 0⟩ = n := by rw [Decimal.value, zpow_zero, mul_one]
  exact ⟨_, _, hcanonical, Decimal.toFloat_eq hcanonical (hdecimal.trans hvalue.symm), hvalue⟩

-- More of them are rounded, which may lead to the next power of two.
theorem exists_double_of_le (hlarge : 2 ^ 53 ≤ n) (hlt : n < 2 ^ 64) :
    ∃ m e, ∃ h : Canonical m e, Float.ofNat n = double .positive h ∧
      (m * 2 ^ e : ℚ) = rounded n := by
  have hn : 0 < n := by omega
  have hq : (0 : ℚ) < n := Nat.cast_pos.mpr hn
  have hlog : n.log2 < 64 := (Nat.log2_lt hn.ne').mpr hlt
  have hlast := lastBit_natCast hlarge
  have hunit : ((unit n : ℕ) : ℚ) = 2 ^ lastBit n := by
    rw [hlast, unit, Nat.cast_pow, zpow_natCast, Nat.cast_ofNat]
  have hem := holds_div n (unit_pos n)
  have hround := roundedMantissa_ofFraction n
  have hmantissa := mantissa_ofMantissaAndAccuracy (n / unit n)
    (accuracyOfFraction (n % unit n) (unit n))
  rw [hunit] at hem
  generalize ExtendedMantissa.ofMantissaAndAccuracy (n / unit n)
    (accuracyOfFraction (n % unit n) (unit n)) = em at hem hround hmantissa
  obtain ⟨u, hu, hfloat⟩ := Decimal.exists_rounds_toFloat ⟨n, 0⟩ hn
  have hdecimal : Decimal.value ⟨n, 0⟩ = n := by rw [Decimal.value, zpow_zero, mul_one]
  rw [hdecimal] at hu
  obtain ⟨_, hem', rfl⟩ := hu.exists_finish hq
  obtain rfl := hem'.unique hem
  have hlow := (le_mantissa hq hem (by omega)).trans (mantissa_le_roundedMantissa _)
  have hhigh := (roundedMantissa_le _).trans (hmantissa.trans_lt (div_unit_lt n))
  obtain ⟨m, e, h, hm⟩ := exists_canonical hlow hhigh (k := n.log2 - 52) (by omega)
  rw [← hlast] at hm
  refine ⟨m, e, h, hfloat.trans ?_, ?_⟩
  · rw [finishRounding_eq hq hem h hm, double]
  · rw [← hm, ← hround, Nat.cast_mul, hunit]

-- The double that is nearest to a whole number of 64 bits.
theorem exists_double_ofNat (hn : 0 < n) (hlt : n < 2 ^ 64) :
    ∃ m e, ∃ h : Canonical m e, Float.ofNat n = double .positive h ∧
      (m * 2 ^ e : ℚ) = rounded n := by
  by_cases hsmall : n < 2 ^ 53
  · rw [rounded_of_lt hsmall]
    exact exists_double_of_lt hn hsmall
  · exact exists_double_of_le (not_lt.mp hsmall) hlt

end

section

variable {m : ℕ} {e : ℤ} {n : ℕ}

theorem roundToInt_eq (hvalue : (m * 2 ^ e : ℚ) = n) : roundToInt .positive m e = n := by
  have hexact := (Holds.exact (m <<< (e - 0).toNat)).shiftRight (0 - (e - (e - 0).toNat)).toNat
  have hquotient : ((m <<< (e - 0).toNat : ℕ) : ℚ) / 2 ^ (0 - (e - (e - 0).toNat)).toNat = n := by
    have hplace : e = ((e - 0).toNat : ℤ) - ((0 - (e - (e - 0).toNat)).toNat : ℤ) := by omega
    rw [← hvalue, Nat.shiftLeft_eq, div_eq_iff (by positivity)]
    push_cast
    rw [← zpow_natCast, ← zpow_natCast, mul_assoc, ← zpow_add₀ two_ne_zero]
    congr 2
    omega
  rw [hquotient] at hexact
  have hmantissa := hexact.floor_eq
  rw [Nat.floor_natCast] at hmantissa
  exact congrArg Nat.cast hmantissa.symm

theorem toNat_ofNatClamp (n : ℕ) : (UInt64.ofNatClamp n).toNat = min n (2 ^ 64 - 1) := by
  unfold UInt64.ofNatClamp
  split
  · rename_i h
    change n = _
    change n < 2 ^ 64 at h
    omega
  · rename_i h
    change 2 ^ 64 - 1 = _
    change ¬n < 2 ^ 64 at h
    omega

variable (h : Canonical m e)

-- A whole double is counted exactly, up to the largest count.
theorem toCount_double (hvalue : (m * 2 ^ e : ℚ) = n) :
    toCount (double .positive h) = min n (2 ^ 64 - 1) := by
  change (double .positive h).toModel.unpack.toUInt64.toNat = _
  rw [unpack_double]
  change (UInt64.ofNatClamp (roundToInt .positive m e).toNat).toNat = _
  rw [roundToInt_eq hvalue, toNat_ofNatClamp, Int.toNat_natCast]

theorem isFinite_double (s : Sign) : (double s h).isFinite = true := by
  change (double s h).toModel.unpack.isFinite = true
  rw [unpack_double]
  rfl

theorem not_double_le_zero : ¬double .positive h ≤ 0.0 := by
  intro hle
  have hmodel : (double .positive h).toModel.unpack.le (Float.toModel 0.0).unpack = true :=
    decide_eq_true_iff.mp hle
  rw [unpack_double] at hmodel
  exact Bool.false_ne_true hmodel

theorem double_le_double {m' : ℕ} {e' : ℤ} (h' : Canonical m' e')
    (hle : e < e' ∨ e = e' ∧ m ≤ m') : double .positive h ≤ double .positive h' := by
  have hmodel : (double .positive h).toModel.unpack.le (double .positive h').toModel.unpack =
      true := by
    rw [unpack_double, unpack_double]
    change ((compare e e').then (compare m m')).isLE = true
    rcases hle with hlt | ⟨rfl, hle⟩
    · rw [Int.compare_eq_lt.mpr hlt]
      rfl
    · rw [Int.compare_eq_eq.mpr rfl]
      exact Nat.isLE_compare.mpr hle
  exact decide_eq_true_iff.mpr hmodel

theorem Canonical.unique {m' : ℕ} {e' : ℤ} (h : Canonical m e) (h' : Canonical m' e')
    (hvalue : (m * 2 ^ e : ℚ) = m' * 2 ^ e') : m = m' ∧ e = e' := by
  obtain rfl : e = e' := by rw [← h.lastBit_eq, hvalue, h'.lastBit_eq]
  exact ⟨Nat.cast_injective (mul_right_cancel₀ (zpow_pos two_pos e).ne' hvalue), rfl⟩

theorem canonical_wide : Canonical (2 ^ 52) 1 :=
  ⟨by omega, by decide, by omega, by omega, .inl Nat.log2_two_pow⟩

theorem wide_eq : (9007199254740992.0 : Float) = double .positive canonical_wide := by
  have hvalue : Decimal.value ⟨90071992547409920, -1⟩ = (2 ^ 52 : ℕ) * 2 ^ (1 : ℤ) := by
    rw [Decimal.value]
    norm_num
  have hread : (9007199254740992.0 : Float) = Decimal.toFloat ⟨90071992547409920, -1⟩ := by
    decide +kernel
  exact hread.trans (Decimal.toFloat_eq canonical_wide hvalue)

-- A whole number has no binary digits behind the point, or is from 2 ^ 53 on.
theorem isWhole_double (hvalue : (m * 2 ^ e : ℚ) = n) : isWhole (double .positive h) = true := by
  rw [isWhole, abs_double, Bool.or_eq_true, decide_eq_true_eq]
  by_cases hsmall : n < 2 ^ 53
  · right
    have hn : 0 < n := Nat.cast_pos.mp (hvalue ▸ h.value_pos)
    obtain ⟨m', e', h', -, hunpack, hvalue'⟩ := exists_unpack_toFloat hn hsmall
    obtain ⟨rfl, rfl⟩ := h'.unique h (hvalue'.trans hvalue.symm)
    have hcount : (double .positive h).toUInt64 = n.toUInt64 := by
      apply UInt64.toNat_inj.mp
      refine (toCount_double h hvalue).trans ?_
      rw [UInt64.toNat_ofNat_of_lt' (lt_trans hsmall (by decide))]
      omega
    rw [hcount]
    change (n.toUInt64.toFloat.toModel.unpack).beq (double .positive h).toModel.unpack = true
    rw [hunpack, unpack_double]
    change (some ((compare e' e').then (compare m' m')) == some .eq) = true
    rw [Int.compare_eq_eq.mpr rfl, Nat.compare_eq_eq.mpr rfl]
    rfl
  · left
    rw [wide_eq]
    apply double_le_double
    have hexponent : 0 < e := by
      by_contra hle
      have hone : (2 : ℚ) ^ e ≤ 1 := zpow_le_one_of_nonpos₀ one_le_two (not_lt.mp hle)
      have hn : (n : ℚ) ≤ m :=
        hvalue ▸ mul_le_of_le_one_right (Nat.cast_nonneg m) hone
      exact hsmall ((Nat.cast_le.mp hn).trans_lt h.lt_pow)
    have hfull : m.log2 = 52 := h.full.resolve_right (by omega)
    have hm : 2 ^ 52 ≤ m := hfull ▸ Nat.log2_self_le h.pos.ne'
    omega

end

-- What becomes of a whole number of 64 bits that is kept as a double.
theorem count_ofNat {n : ℕ} (hn : 0 < n) (hlt : n < 2 ^ 64) :
    (Float.ofNat n).isFinite = true ∧ ¬Float.ofNat n ≤ 0.0 ∧ isWhole (Float.ofNat n) = true ∧
      toCount (Float.ofNat n) = min (rounded n) (2 ^ 64 - 1) := by
  obtain ⟨m, e, h, hfloat, hvalue⟩ := exists_double_ofNat hn hlt
  rw [hfloat]
  exact ⟨isFinite_double h _, not_double_le_zero h, isWhole_double h hvalue, toCount_double h hvalue⟩

theorem readSign_cons {c : Char} (hc : c.isDigit = true) (rest : List Char) :
    readSign (c :: rest) = (false, c :: rest) := by
  unfold readSign
  split
  · rename_i hcons
    cases hcons
    cases hc
  · rename_i hcons
    cases hcons
    cases hc
  · rfl

theorem readDecimal_toDigits (n : ℕ) : readDecimal (Nat.toDigits 10 n) = some ⟨n, 0⟩ := by
  have hdigits := Json.isDigits_toDigits n
  have hspan : spanDigits (Nat.toDigits 10 n) = (Nat.toDigits 10 n, []) := by
    have hends : Json.EndsDigits [] := by
      rintro _ ⟨⟩
    have happend := Json.spanDigits_append hdigits.2 hends
    rwa [List.append_nil] at happend
  have hmantissa : readMantissa (Nat.toDigits 10 n) = some (⟨n, 0⟩, []) := by
    rw [readMantissa, hspan]
    change (if Nat.toDigits 10 n = [] then none
      else some ((⟨digitsValue (Nat.toDigits 10 n), 0⟩ : Decimal), ([] : List Char))) = _
    rw [if_neg hdigits.1, Json.digitsValue_toDigits]
  rw [readDecimal, hmantissa]
  rfl

-- The decimal text of a whole number is read as the double that is nearest to it.
theorem read_toString (n : ℕ) :
    read (Text.trimChars (toString n).toList) = .ok (Float.ofNat n) := by
  have hdigits := Json.isDigits_toDigits n
  have hblank : ∀ c ∈ Nat.toDigits 10 n, Text.isBlank c = false := fun c hc =>
    Lexeme.not_isBlank_of_isWordChar (Lexeme.isWordChar_of_isDigit (hdigits.2 c hc))
  have hdecimal := readDecimal_toDigits n
  rw [Nat.toString_eq_repr, Nat.toList_repr, Text.trimChars_of_not_isBlank hblank]
  obtain ⟨c, rest, hcons⟩ := List.exists_cons_of_ne_nil hdigits.1
  rw [hcons] at hdigits hdecimal ⊢
  rw [read, if_neg (List.cons_ne_nil c rest), readSign_cons (hdigits.2 c List.mem_cons_self)]
  simp only [hdecimal]
  rfl

end Number

end CandleScript
