import CandleScript.Number.Decimal
import CandleScript.Proofs.Number.Double

namespace CandleScript.Number

open Float.Model Float.Model.UnpackedFloat

def Decimal.value (d : Decimal) : ℚ := d.digits * 10 ^ d.exponent

theorem ten_zpow_pos (e : ℤ) : (0 : ℚ) < 10 ^ e := zpow_pos (by norm_num) e

theorem two_zpow_le_ten_zpow {e : ℤ} (he : 0 ≤ e) : (2 : ℚ) ^ e ≤ 10 ^ e :=
  zpow_le_zpow_left₀ he two_pos.le (by norm_num)

section

variable {m : ℕ} (hm : 0 < m)

include hm

-- Powers of ten that are not below one are multiplied with a mantissa that is
-- longer than that of a double.
theorem rounds_mul_ten (e : ℕ) :
    Rounds (m * 10 ^ e) (UnpackedFloat.mul Format.binary64
      (.finite .positive (m <<< 53) (-53) (Nat.shiftLeft_pos_iff.mpr hm))
      (.finite .positive (10 ^ e) 0 (Nat.pow_pos (by decide)))) := by
  have hvalue : ((m <<< 53 : ℕ) : ℚ) * 2 ^ (-53 : ℤ) * ((10 ^ e : ℕ) * 2 ^ (0 : ℤ)) =
      m * 10 ^ e := by
    have hunit : (2 : ℚ) ^ 53 * 2 ^ (-53 : ℤ) = 1 := by norm_num
    calc
      ((m <<< 53 : ℕ) : ℚ) * 2 ^ (-53 : ℤ) * ((10 ^ e : ℕ) * 2 ^ (0 : ℤ)) =
          m * (2 ^ 53 * 2 ^ (-53 : ℤ)) * 10 ^ e := by
        rw [Nat.shiftLeft_eq, Nat.cast_mul, Nat.cast_pow, Nat.cast_pow, zpow_zero]
        push_cast
        ring
      _ = m * 10 ^ e := by rw [hunit, mul_one]
  rw [← hvalue]
  apply rounds_mul
  rw [hvalue]
  apply le_lastBit
  have hone : (1 : ℚ) ≤ m * 10 ^ e := by exact_mod_cast Nat.mul_pos hm (by positivity)
  refine le_trans ?_ hone
  norm_num

theorem rounds_div_ten (e : ℕ) :
    Rounds (m / 10 ^ e) (UnpackedFloat.div Format.binary64 (.finite .positive m 0 hm)
      (.finite .positive (10 ^ e) 0 (Nat.pow_pos (by decide)))) := by
  have hvalue : ((m : ℕ) : ℚ) * 2 ^ (0 : ℤ) / ((10 ^ e : ℕ) * 2 ^ (0 : ℤ)) = m / 10 ^ e := by
    push_cast
    norm_num
  rw [← hvalue]
  exact rounds_div hm _

-- The two guards against huge powers of ten agree with the rounding.
theorem exists_rounds_ofScientific (e : ℤ) :
    ∃ u, Rounds (m * 10 ^ e) u ∧
      UnpackedFloat.pack Format.binary64 (UnpackedFloat.ofScientific Format.binary64 m e) =
        UnpackedFloat.pack Format.binary64 u := by
  have hrange : (2 : ℤ) ^ Format.binary64.exponentBits = 2048 := rfl
  have hone : (1 : ℚ) ≤ m := by exact_mod_cast hm
  by_cases hsign : 0 ≤ e
  · obtain ⟨n, rfl⟩ := Int.eq_ofNat_of_zero_le hsign
    have hrounds := rounds_mul_ten hm n
    rw [← zpow_natCast] at hrounds
    refine ⟨_, hrounds, ?_⟩
    rw [UnpackedFloat.ofScientific, dif_neg hm.ne', hrange]
    by_cases hlarge : (n : ℤ) > 2048
    · rw [if_pos hlarge, hrounds.pack_of_large]
      · rfl
      · calc
          (2 : ℚ) ^ (1024 : ℤ) ≤ 2 ^ (n : ℤ) := zpow_le_zpow_right₀ (by norm_num) (by omega)
          _ ≤ 1 * 10 ^ (n : ℤ) := by
            rw [one_mul]
            exact two_zpow_le_ten_zpow hsign
          _ ≤ m * 10 ^ (n : ℤ) := mul_le_mul_of_nonneg_right hone (ten_zpow_pos _).le
    · rw [if_neg hlarge, if_neg (by omega), if_pos hsign]
      rfl
  · obtain ⟨n, rfl⟩ : ∃ n : ℕ, e = -n := ⟨(-e).toNat, by omega⟩
    have hrounds := rounds_div_ten hm n
    rw [div_eq_mul_inv, ← zpow_natCast, ← zpow_neg] at hrounds
    refine ⟨_, hrounds, ?_⟩
    rw [UnpackedFloat.ofScientific, dif_neg hm.ne', hrange, if_neg (by omega)]
    by_cases hsmall : -(n : ℤ) < -(2048 + m.log2)
    · have hpos := mul_pos (zero_lt_one.trans_le hone) (ten_zpow_pos (-(n : ℤ)))
      rw [if_pos hsmall, hrounds.eq_zero_of_small hpos]
      calc
        (m : ℚ) * 10 ^ (-(n : ℤ)) ≤ m * 2 ^ (-(n : ℤ)) := by
          apply mul_le_mul_of_nonneg_left _ (zero_le_one.trans hone)
          rw [zpow_neg, zpow_neg]
          exact inv_anti₀ (zpow_pos two_pos _) (two_zpow_le_ten_zpow (Int.natCast_nonneg n))
        _ < 2 ^ (m.log2 + 1 + -(n : ℤ)) := by
          refine lt_of_lt_of_le ?_ (mantissa_lt_zpow m _)
          exact mul_lt_mul_of_pos_right (lt_add_one _) (zpow_pos two_pos _)
        _ ≤ 2 ^ (-1075 : ℤ) := zpow_le_zpow_right₀ (by norm_num) (by omega)
    · have hnatural : (- -(n : ℤ)).toNat = n := by omega
      rw [if_neg hsmall, if_neg hsign]
      simp only [hnatural]

-- Whole numbers of 53 bits are doubles.
theorem ofUInt64_eq (hlt : m < 2 ^ 53) (h : Canonical (m * 2 ^ (52 - m.log2)) (0 + m.log2 - 52)) :
    UnpackedFloat.ofUInt64 Format.binary64 m.toUInt64 =
      .finite .positive (m * 2 ^ (52 - m.log2)) (0 + m.log2 - 52) h.pos := by
  have hlog := (Nat.log2_lt hm.ne').mpr hlt
  have htoNat : m.toUInt64.toNat = m := UInt64.toNat_ofNat_of_lt' (by
    change m < 2 ^ 64
    omega)
  have htarget : Format.binary64.targetExponent (totalExponent m 0) = 0 + m.log2 - 52 := by
    rw [targetExponent_eq, totalExponent]
    omega
  have hshift : (0 - (0 + (m.log2 : ℤ) - 52)).toNat = 52 - m.log2 := by omega
  have hexponent : (0 : ℤ) - ((52 - m.log2 : ℕ) : ℤ) = 0 + m.log2 - 52 := by omega
  rw [UnpackedFloat.ofUInt64, UnpackedFloat.ofNat, UnpackedFloat.ofInt, UnpackedFloat.normalize,
    htoNat, Int.compare_eq_gt.mpr (by omega)]
  simp only [Int.toNat_natCast, UnpackedFloat.round, htarget, decreaseExponent, hshift,
    Nat.shiftLeft_eq, hexponent]
  exact roundWithAccuracy_self h.pos h.lastBit_eq

theorem exists_unpack_toFloat (hlt : m < 2 ^ 53) :
    ∃ n e, ∃ h : Canonical n e, 2 ^ 52 ≤ n ∧
      m.toUInt64.toFloat.toModel.unpack = .finite .positive n e h.pos ∧ (n * 2 ^ e : ℚ) = m := by
  have hlog := (Nat.log2_lt hm.ne').mpr hlt
  have hcanonical : Canonical (m * 2 ^ (52 - m.log2)) (0 + m.log2 - 52) :=
    canonical_full hm (by omega) (by omega) (by omega)
  refine ⟨_, _, hcanonical, ?_, ?_, ?_⟩
  · have hself := Nat.log2_self_le hcanonical.pos.ne'
    rw [log2_mul_two_pow hm, Nat.add_sub_cancel' (by omega)] at hself
    exact hself
  · change UnpackedFloat.unpack Format.binary64 (UnpackedFloat.pack Format.binary64
      (UnpackedFloat.ofUInt64 Format.binary64 m.toUInt64)) = _
    rw [ofUInt64_eq hm hlt hcanonical, hcanonical.unpack_pack]
  · rw [value_full (by omega), zpow_zero, mul_one]

end

theorem log2_five_pow : ∀ e < 23, (5 ^ e).log2 ≤ 52 := by
  decide +kernel

-- The table of the powers of ten that are doubles.
theorem bits_powerOfTen : ∀ e, ∀ he : e < Float.exactlyRepresentablePowersOfTen.size,
    Float.exactlyRepresentablePowersOfTen[e].toModel.toBits.toBitVec =
      UnpackedFloat.pack Format.binary64 (.finite .positive (5 ^ e * 2 ^ (52 - (5 ^ e).log2))
        (e + (5 ^ e).log2 - 52)
        (Nat.mul_pos (Nat.pow_pos (Nat.succ_pos 4)) (Nat.two_pow_pos _))) := by
  decide +kernel

theorem exists_unpack_powerOfTen {e : ℕ} (he : e < Float.exactlyRepresentablePowersOfTen.size) :
    ∃ n f, ∃ h : Canonical n f,
      Float.exactlyRepresentablePowersOfTen[e].toModel.unpack = .finite .positive n f h.pos ∧
        (n * 2 ^ f : ℚ) = 10 ^ e := by
  have he' : e < 23 := he
  have hlog := log2_five_pow e he
  have hcanonical : Canonical (5 ^ e * 2 ^ (52 - (5 ^ e).log2)) (e + (5 ^ e).log2 - 52) :=
    canonical_full (by positivity) hlog (by omega) (by omega)
  refine ⟨_, _, hcanonical, ?_, ?_⟩
  · rw [Float.Model.unpack, bits_powerOfTen e he]
    exact hcanonical.unpack_pack .positive
  · rw [value_full hlog, Nat.cast_pow, Nat.cast_ofNat, zpow_natCast, ← mul_pow]
    norm_num

-- The way over doubles that hold the digits and the power of ten.
theorem exists_rounds_fast {m k : ℕ} (hm : 0 < m) (hlt : m < 2 ^ 53)
    (hk : k < Float.exactlyRepresentablePowersOfTen.size) :
    (∃ u, Rounds (m * 10 ^ k) u ∧
      m.toUInt64.toFloat * Float.exactlyRepresentablePowersOfTen[k] = .ofModel (.pack u)) ∧
    ∃ u, Rounds (m / 10 ^ k) u ∧
      m.toUInt64.toFloat / Float.exactlyRepresentablePowersOfTen[k] = .ofModel (.pack u) := by
  obtain ⟨n, e, hn, hfull, hunpack, hvalue⟩ := exists_unpack_toFloat hm hlt
  obtain ⟨n', e', hn', hunpack', hvalue'⟩ := exists_unpack_powerOfTen hk
  constructor
  · have hfits : e + e' ≤ lastBit (n * 2 ^ e * (n' * 2 ^ e')) := by
      apply le_lastBit
      calc
        (2 : ℚ) ^ (e + e' + 52) = 2 ^ 52 * 2 ^ e * (1 * 2 ^ e') := by
          rw [zpow_add₀ two_ne_zero, zpow_add₀ two_ne_zero]
          norm_cast
          ring
        _ ≤ n * 2 ^ e * (n' * 2 ^ e') := by
          have hlow : (2 : ℚ) ^ 52 ≤ n := by exact_mod_cast hfull
          have hlow' : (1 : ℚ) ≤ n' := by exact_mod_cast hn'.pos
          gcongr
    have hrounds := rounds_mul hn.pos hn'.pos hfits
    rw [hvalue, hvalue'] at hrounds
    refine ⟨_, hrounds, ?_⟩
    rw [← hunpack, ← hunpack']
    rfl
  · have hrounds : Rounds (n * 2 ^ e / (n' * 2 ^ e')) _ := rounds_div hn.pos hn'.pos
    rw [hvalue, hvalue'] at hrounds
    refine ⟨_, hrounds, ?_⟩
    rw [← hunpack, ← hunpack']
    rfl

theorem Decimal.value_eq (d : Decimal) :
    d.value = if d.exponent < 0 then (d.digits : ℚ) / 10 ^ d.exponent.natAbs
      else (d.digits : ℚ) * 10 ^ d.exponent.natAbs := by
  rw [Decimal.value]
  split
  · rename_i hsign
    have habs : d.exponent = -(d.exponent.natAbs : ℤ) := by omega
    rw [habs, Int.natAbs_neg, Int.natAbs_natCast, zpow_neg, zpow_natCast, div_eq_mul_inv]
  · rename_i hsign
    have habs : d.exponent = (d.exponent.natAbs : ℤ) := by omega
    rw [habs, Int.natAbs_natCast, zpow_natCast]

-- Every decimal is rounded to the double that is nearest to its value.
theorem Decimal.exists_rounds_toFloat (d : Decimal) (hd : 0 < d.digits) :
    ∃ u, Rounds d.value u ∧ d.toFloat = .ofModel (.pack u) := by
  rw [Decimal.toFloat, Float.ofScientific]
  by_cases hfast : d.digits < 2 ^ 53 ∧ d.exponent.natAbs ≤ 22
  · -- the digits and the power of ten are doubles, so their product is rounded once
    obtain ⟨hmul, hdiv⟩ := exists_rounds_fast hd hfast.1 (Nat.lt_succ_of_le hfast.2)
    rw [dif_pos hfast, d.value_eq]
    by_cases hsign : d.exponent < 0
    · simp only [hsign, if_true, decide_true]
      exact hdiv
    · simp only [hsign, if_false, decide_false, Bool.false_eq_true]
      exact hmul
  · obtain ⟨u, hrounds, hpack⟩ := exists_rounds_ofScientific hd d.exponent
    have hexponent : (if decide (d.exponent < 0) then Int.negOfNat d.exponent.natAbs
        else Int.ofNat d.exponent.natAbs) = d.exponent := by
      by_cases hsign : d.exponent < 0
      · simp only [hsign, decide_true, if_true]
        rw [Int.negOfNat_eq, Int.ofNat_eq_natCast]
        omega
      · simp only [hsign, decide_false, Bool.false_eq_true, if_false]
        rw [Int.ofNat_eq_natCast]
        omega
    refine ⟨u, hrounds, ?_⟩
    rw [dif_neg hfast]
    simp only [hexponent]
    rw [Float.Model.ofScientific, pack_congr hpack]

theorem Decimal.toFloat_zero (e : ℤ) :
    Decimal.toFloat ⟨0, e⟩ = .ofModel (.pack (.zero .positive)) := by
  rw [Decimal.toFloat, Float.ofScientific]
  by_cases hfast : (0 : ℕ) < 2 ^ 53 ∧ e.natAbs ≤ 22
  · have hsize : e.natAbs < Float.exactlyRepresentablePowersOfTen.size :=
      Nat.lt_succ_of_le hfast.2
    obtain ⟨n, f, hn, hunpack, -⟩ := exists_unpack_powerOfTen hsize
    rw [dif_pos hfast]
    by_cases hsign : e < 0
    · simp only [hsign, if_true, decide_true]
      change Float.ofModel (.pack (UnpackedFloat.div Format.binary64 (.zero .positive)
        (Float.exactlyRepresentablePowersOfTen[e.natAbs]).toModel.unpack)) = _
      rw [hunpack]
      rfl
    · simp only [hsign, if_false, decide_false, Bool.false_eq_true]
      change Float.ofModel (.pack (UnpackedFloat.mul Format.binary64 (.zero .positive)
        (Float.exactlyRepresentablePowersOfTen[e.natAbs]).toModel.unpack)) = _
      rw [hunpack]
      rfl
  · rw [dif_neg hfast]
    rfl

theorem Decimal.value_eq_zero_iff (d : Decimal) : d.value = 0 ↔ d.digits = 0 := by
  rw [Decimal.value, mul_eq_zero, Nat.cast_eq_zero, or_iff_left (ten_zpow_pos _).ne']

theorem Decimal.value_pos {d : Decimal} (hd : 0 < d.digits) : 0 < d.value :=
  mul_pos (Nat.cast_pos.mpr hd) (ten_zpow_pos _)

theorem Decimal.toFloat_congr {d d' : Decimal} (h : d.value = d'.value) :
    d.toFloat = d'.toFloat := by
  by_cases hd : d.digits = 0
  · have hd' : d'.digits = 0 := by
      rw [← value_eq_zero_iff, ← h, value_eq_zero_iff, hd]
    obtain ⟨_, e⟩ := d
    obtain ⟨_, e'⟩ := d'
    subst hd
    subst hd'
    rw [toFloat_zero, toFloat_zero]
  · have hd' : d'.digits ≠ 0 := by
      rwa [Ne, ← value_eq_zero_iff, ← h, value_eq_zero_iff]
    obtain ⟨u, hu, hfloat⟩ := d.exists_rounds_toFloat (Nat.pos_of_ne_zero hd)
    obtain ⟨u', hu', hfloat'⟩ := d'.exists_rounds_toFloat (Nat.pos_of_ne_zero hd')
    rw [← h] at hu'
    rw [hfloat, hfloat', hu.unique (value_pos (Nat.pos_of_ne_zero hd)) hu']

theorem Decimal.toFloat_eq {d : Decimal} {m : ℕ} {e : ℤ} (h : Canonical m e)
    (hvalue : d.value = m * 2 ^ e) : d.toFloat = double .positive h := by
  have hd : d.digits ≠ 0 := by
    rw [Ne, ← value_eq_zero_iff, hvalue]
    exact h.value_pos.ne'
  obtain ⟨u, hu, hfloat⟩ := d.exists_rounds_toFloat (Nat.pos_of_ne_zero hd)
  rw [hvalue] at hu
  rw [hfloat, hu.unique h.value_pos (rounds_self h.pos h.lastBit_eq), double]

end CandleScript.Number
