import CandleScript.Proofs.Number.Nearest

namespace CandleScript.Number

open Float.Model Float.Model.UnpackedFloat

-- Only what is not finite has an exponent of ones.
theorem isFinite_unpack_packComponents (s : Sign) {e : BitVec 11} (m : BitVec 52)
    (he : e.toNat ≠ 2047) :
    (UnpackedFloat.unpack Format.binary64
      (packComponents Format.binary64 s e m)).isFinite = true := by
  have hones : e ≠ -1#11 := by
    rintro rfl
    exact he rfl
  rw [UnpackedFloat.unpack]
  simp only [unpackMantissa_packComponents, unpackExponent_packComponents, if_neg hones]
  split
  · split <;> rfl
  · rfl

theorem isFinite_unpack_pack (s : Sign) {m : ℕ} {e : ℤ} (hm : 0 < m) (he : e ≤ 971) :
    (UnpackedFloat.unpack Format.binary64
      (UnpackedFloat.pack Format.binary64 (.finite s m e hm))).isFinite = true := by
  have hbiased : ¬2 ^ 11 ≤ (e + 1023 + 52).toNat + 1 := by omega
  rw [UnpackedFloat.pack]
  change (UnpackedFloat.unpack Format.binary64 (if 2 ^ 11 ≤ (e + 1023 + 52).toNat + 1 then _
    else if m.log2 + 1 = 53 then packComponents Format.binary64 s (.ofNat 11 (e + 1023 + 52).toNat)
      (.ofNat 52 m) else packComponents Format.binary64 s 0#11 (.ofNat 52 m))).isFinite = true
  rw [if_neg hbiased]
  split
  · apply isFinite_unpack_packComponents
    rw [toNat_ofNat_of_lt (by omega)]
    omega
  · exact isFinite_unpack_packComponents s _ (by decide)

theorem pack_eq_packedInfinity (s : Sign) {m : ℕ} {e : ℤ} (hm : 0 < m) (he : 971 < e) :
    UnpackedFloat.pack Format.binary64 (.finite s m e hm) = packedInfinity Format.binary64 s := by
  have hbiased : 2 ^ 11 ≤ (e + 1023 + 52).toNat + 1 := by omega
  rw [UnpackedFloat.pack]
  exact if_pos hbiased

-- Far below the largest double nothing is rounded to infinity.
theorem Rounds.isFinite {q : ℚ} (hq : 0 < q) {u : UnpackedFloat} (h : Rounds q u)
    (hsmall : q < 2 ^ (1023 : ℤ)) :
    (UnpackedFloat.unpack Format.binary64
      (UnpackedFloat.pack Format.binary64 u)).isFinite = true := by
  obtain ⟨em, hem, rfl⟩ := h.exists_finish hq
  rcases finishRounding_cases hq hem with hzero | ⟨hsome, m, hm, hfinite⟩
  · rw [hzero]
    rfl
  · rw [hfinite]
    apply isFinite_unpack_pack
    have hlog := (Int.lt_zpow_iff_log_lt one_lt_two hq).mp hsmall
    have hlast : lastBit q ≤ 970 := by
      rw [lastBit]
      omega
    -- rounding up adds at most one in the last place
    have hrounded : (em.roundedMantissa * 2 ^ lastBit q : ℚ) < 2 ^ (1024 : ℤ) := by
      have hunit : (0 : ℚ) < 2 ^ lastBit q := zpow_pos two_pos _
      have hmantissa : (em.roundedMantissa : ℚ) ≤ em.mantissa + 1 := by
        exact_mod_cast roundedMantissa_le em
      have hvalue : (em.mantissa : ℚ) * 2 ^ lastBit q ≤ q := (le_div_iff₀ hunit).mp hem.le
      have hplace : (2 : ℚ) ^ lastBit q ≤ 2 ^ (1023 : ℤ) :=
        zpow_le_zpow_right₀ (by norm_num) (by omega)
      calc
        (em.roundedMantissa * 2 ^ lastBit q : ℚ) ≤ (em.mantissa + 1) * 2 ^ lastBit q :=
          mul_le_mul_of_nonneg_right hmantissa hunit.le
        _ = em.mantissa * 2 ^ lastBit q + 2 ^ lastBit q := by ring
        _ < 2 ^ (1023 : ℤ) + 2 ^ (1023 : ℤ) :=
          add_lt_add_of_lt_of_le (hvalue.trans_lt hsmall) hplace
        _ = 2 ^ (1024 : ℤ) := by
          rw [← two_mul, ← zpow_one_add₀ two_ne_zero]
          rfl
    have hpos : (0 : ℚ) < em.roundedMantissa * 2 ^ lastBit q :=
      mul_pos (Nat.cast_pos.mpr hsome) (zpow_pos two_pos _)
    have hlog' := (Int.lt_zpow_iff_log_lt one_lt_two hpos).mp hrounded
    rw [lastBit]
    omega

theorem Decimal.isFinite_toFloat {d : Decimal} (hsmall : d.value < 2 ^ (1023 : ℤ)) :
    d.toFloat.isFinite = true := by
  by_cases hd : d.digits = 0
  · obtain ⟨_, e⟩ := d
    subst hd
    rw [toFloat_zero]
    rfl
  · obtain ⟨u, hu, hfloat⟩ := d.exists_rounds_toFloat (Nat.pos_of_ne_zero hd)
    rw [hfloat]
    exact hu.isFinite (value_pos (Nat.pos_of_ne_zero hd)) hsmall

-- What is too large to be a double.
def infinity : Float := .ofModel (.pack (.infinity .positive))

theorem Decimal.isFinite_or_eq_infinity (d : Decimal) :
    d.toFloat.isFinite = true ∨ d.toFloat = infinity := by
  by_cases hd : d.digits = 0
  · obtain ⟨_, e⟩ := d
    subst hd
    rw [toFloat_zero]
    exact .inl rfl
  · obtain ⟨u, hu, hfloat⟩ := d.exists_rounds_toFloat (Nat.pos_of_ne_zero hd)
    have hvalue := value_pos (Nat.pos_of_ne_zero hd)
    obtain ⟨em, hem, rfl⟩ := hu.exists_finish hvalue
    rw [hfloat]
    rcases finishRounding_cases hvalue hem with hzero | ⟨-, m, hm, hfinite⟩
    · rw [hzero]
      exact .inl rfl
    · rw [hfinite]
      by_cases he : lastBit (em.roundedMantissa * 2 ^ lastBit d.value) ≤ 971
      · exact .inl (isFinite_unpack_pack .positive hm he)
      · refine .inr (congrArg Float.ofModel (pack_congr ?_))
        exact pack_eq_packedInfinity .positive hm (not_le.mp he)

theorem isFinite_neg {x : Float} (hx : x.isFinite = true) : (-x).isFinite = true := by
  rcases zero_or_double hx with ⟨s, rfl⟩ | ⟨s, m, e, h, rfl⟩
  · cases s <;> rfl
  · change (Float.ofModel (.pack (double s h).toModel.unpack.neg)).isFinite = true
    rw [unpack_double]
    exact isFinite_unpack_pack _ h.pos h.exponent_le

-- Whole numbers of 64 bits are rounded to finite doubles.
theorem isFinite_ofNat {n : ℕ} (h : n ≤ 2 ^ 64) : (Float.ofNat n).isFinite = true := by
  apply Decimal.isFinite_toFloat (d := ⟨n, 0⟩)
  have hn : (n : ℚ) ≤ 2 ^ (64 : ℤ) := by exact_mod_cast h
  rw [Decimal.value, zpow_zero, mul_one]
  exact hn.trans_lt (zpow_lt_zpow_right₀ one_lt_two (by norm_num))

theorem isFinite_ofInt {n : ℤ} (h : n.natAbs ≤ 2 ^ 64) : (Float.ofInt n).isFinite = true := by
  cases n with
  | ofNat n => exact isFinite_ofNat h
  | negSucc n => exact isFinite_neg (isFinite_ofNat h)

end CandleScript.Number
