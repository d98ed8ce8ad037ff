import CandleScript.Number.Decimal
import CandleScript.Proofs.Number.Rounding

namespace CandleScript.Number

open Float.Model Float.Model.UnpackedFloat

theorem toNat_packComponents (s : Sign) (e : BitVec 11) (m : BitVec 52) :
    (packComponents Format.binary64 s e m).toNat =
      s.toBitVec.toNat * 2 ^ 63 + e.toNat * 2 ^ 52 + m.toNat := by
  change (s.toBitVec ++ e ++ m).toNat = _
  rw [BitVec.toNat_append, ← Nat.shiftLeft_add_eq_or_of_lt m.isLt, BitVec.toNat_append,
    ← Nat.shiftLeft_add_eq_or_of_lt e.isLt, Nat.shiftLeft_eq, Nat.shiftLeft_eq]
  omega

theorem toNat_implicit (m : BitVec 52) : (1#1 ++ m).toNat = 2 ^ 52 + m.toNat := by
  rw [BitVec.toNat_append, ← Nat.shiftLeft_add_eq_or_of_lt m.isLt]
  rfl

theorem toNat_ofNat_of_lt {width n : ℕ} (h : n < 2 ^ width) : (BitVec.ofNat width n).toNat = n := by
  rw [BitVec.toNat_ofNat, Nat.mod_eq_of_lt h]

section

variable (s : Sign)

-- The three forms of a finite double, from its parts.
theorem unpack_zero :
    UnpackedFloat.unpack Format.binary64 (packComponents Format.binary64 s 0#11 0#52) =
      .zero s := by
  rw [UnpackedFloat.unpack]
  simp [unpackSign_packComponents]

theorem unpack_subnormal {m : BitVec 52} (hm : 0 < m.toNat) :
    UnpackedFloat.unpack Format.binary64 (packComponents Format.binary64 s 0#11 m) =
      .finite s m.toNat (-1074) hm := by
  have hsome : m ≠ 0#52 := by
    rintro rfl
    contradiction
  have hones : (0#11 : BitVec Format.binary64.exponentBits) ≠ -1#11 := by decide
  rw [UnpackedFloat.unpack]
  simp only [unpackMantissa_packComponents, unpackExponent_packComponents,
    unpackSign_packComponents, Sign.ofBitVec_toBitVec, if_neg hones, if_true, dif_neg hsome]
  rfl

theorem unpack_normal {e : BitVec 11} (m : BitVec 52) (hones : e.toNat ≠ 2047)
    (hzero : e.toNat ≠ 0) :
    UnpackedFloat.unpack Format.binary64 (packComponents Format.binary64 s e m) =
      .finite s (2 ^ 52 + m.toNat) (e.toNat - 1075) (by omega) := by
  have hones' : e ≠ -1#11 := by
    rintro rfl
    exact hones rfl
  have hzero' : e ≠ 0#11 := by
    rintro rfl
    exact hzero rfl
  rw [UnpackedFloat.unpack]
  simp only [unpackMantissa_packComponents, unpackExponent_packComponents,
    unpackSign_packComponents, Sign.ofBitVec_toBitVec, if_neg hones', if_neg hzero', toNat_implicit]
  rfl

theorem pack_subnormal {m : ℕ} (hm : 0 < m) (hlt : m < 2 ^ 52) :
    UnpackedFloat.pack Format.binary64 (.finite s m (-1074) hm) =
      packComponents Format.binary64 s 0#11 (.ofNat 52 m) := by
  have hlog := (Nat.log2_lt hm.ne').mpr hlt
  have hbiased : ¬2 ^ 11 ≤ ((-1074 : ℤ) + 1023 + 52).toNat + 1 := by decide
  have hbits : ¬m.log2 + 1 = 53 := by omega
  rw [UnpackedFloat.pack]
  exact (if_neg hbiased).trans (if_neg hbits)

theorem pack_normal {m e : ℕ} (hm : 0 < m) (hlog : m.log2 = 52) (he : e < 2047) :
    UnpackedFloat.pack Format.binary64 (.finite s m (e - 1075) hm) =
      packComponents Format.binary64 s (.ofNat 11 e) (.ofNat 52 m) := by
  have hbiased : ((e : ℤ) - 1075 + 1023 + 52).toNat = e := by omega
  have hfits : ¬2 ^ 11 ≤ ((e : ℤ) - 1075 + 1023 + 52).toNat + 1 := by omega
  have hbits : m.log2 + 1 = 53 := by omega
  rw [UnpackedFloat.pack]
  refine (if_neg hfits).trans ((if_pos hbits).trans ?_)
  change packComponents Format.binary64 s (.ofNat 11 ((e : ℤ) - 1075 + 1023 + 52).toNat)
    (.ofNat 52 m) = _
  rw [hbiased]

end

-- The mantissa and the exponent of a finite double: 53 bits, or fewer of them
-- for the smallest doubles.
structure Canonical (m : ℕ) (e : ℤ) : Prop where
  pos : 0 < m
  log_le : m.log2 ≤ 52
  le_exponent : -1074 ≤ e
  exponent_le : e ≤ 971
  full : m.log2 = 52 ∨ e = -1074

namespace Canonical

variable {m : ℕ} {e : ℤ}

theorem lastBit_eq (h : Canonical m e) : lastBit (m * 2 ^ e) = e := by
  have hvalue : ((m : ℚ) * 2 ^ e) / 2 ^ e = m := mul_div_cancel_right₀ _ (zpow_pos two_pos e).ne'
  have hlog := log_eq_of_mantissa (q := m * 2 ^ e) (e := e) h.pos.ne' (le_of_eq hvalue.symm)
    (lt_of_eq_of_lt hvalue (lt_add_one _))
  obtain ⟨-, hle, hlow, -, hfull⟩ := h
  rw [lastBit, hlog]
  omega

theorem value_pos (h : Canonical m e) : (0 : ℚ) < m * 2 ^ e :=
  mul_pos (Nat.cast_pos.mpr h.pos) (zpow_pos two_pos e)

theorem lt_pow (h : Canonical m e) : m < 2 ^ 53 :=
  Nat.lt_log2_self.trans_le (Nat.pow_le_pow_right two_pos (Nat.succ_le_succ h.log_le))

-- Packing keeps the mantissa and the exponent of a double.
theorem unpack_pack (h : Canonical m e) (s : Sign) :
    UnpackedFloat.unpack Format.binary64
      (UnpackedFloat.pack Format.binary64 (.finite s m e h.pos)) = .finite s m e h.pos := by
  obtain ⟨hpos, hlog, hlow, hhigh, hfull⟩ := id h
  by_cases hnormal : m.log2 = 52
  · have hle : 2 ^ 52 ≤ m := hnormal ▸ Nat.log2_self_le hpos.ne'
    have hlt := h.lt_pow
    obtain ⟨biased, rfl⟩ : ∃ biased : ℕ, e = biased - 1075 := by
      refine ⟨(e + 1075).toNat, ?_⟩
      omega
    have hexponent : (BitVec.ofNat 11 biased).toNat = biased := toNat_ofNat_of_lt (by omega)
    rw [pack_normal s hpos hnormal (by omega),
      unpack_normal s _ (by rw [hexponent]; omega) (by rw [hexponent]; omega)]
    congr 1
    · rw [BitVec.toNat_ofNat]
      omega
    · rw [hexponent]
  · obtain rfl := hfull.resolve_left hnormal
    have hlt : m < 2 ^ 52 := by
      refine Nat.lt_log2_self.trans_le (Nat.pow_le_pow_right two_pos ?_)
      omega
    have hmantissa : (BitVec.ofNat 52 m).toNat = m := toNat_ofNat_of_lt hlt
    rw [pack_subnormal s hpos hlt, unpack_subnormal s (by rw [hmantissa]; exact hpos)]
    congr 1

end Canonical

theorem log2_mul_two_pow {m : ℕ} (hm : 0 < m) (n : ℕ) : (m * 2 ^ n).log2 = m.log2 + n := by
  induction n with
  | zero => rw [pow_zero, Nat.mul_one, Nat.add_zero]
  | succ n ih =>
      rw [pow_succ, ← Nat.mul_assoc, Nat.mul_comm _ 2, Nat.log2_two_mul (by positivity), ih,
        Nat.add_assoc]

-- A mantissa moved up to its full length.
theorem canonical_full {m : ℕ} {e : ℤ} (hm : 0 < m) (hlog : m.log2 ≤ 52) (hlow : -1074 ≤ e)
    (hhigh : e ≤ 971) : Canonical (m * 2 ^ (52 - m.log2)) e := by
  have hfull := log2_mul_two_pow hm (52 - m.log2)
  exact ⟨by positivity, by omega, hlow, hhigh, .inl (by omega)⟩

theorem value_full {m : ℕ} (hlog : m.log2 ≤ 52) (e : ℤ) :
    ((m * 2 ^ (52 - m.log2) : ℕ) * 2 ^ (e + m.log2 - 52) : ℚ) = m * 2 ^ e := by
  have hexponent : ((52 - m.log2 : ℕ) : ℤ) + (e + m.log2 - 52) = e := by omega
  rw [Nat.cast_mul, Nat.cast_pow, Nat.cast_ofNat, ← zpow_natCast (2 : ℚ), mul_assoc,
    ← zpow_add₀ two_ne_zero, hexponent]

-- The parts of a finite double are canonical, and packing them gives back its
-- bits.
theorem unpack_finite (bits : BitVec 64)
    (hfinite : (UnpackedFloat.unpack Format.binary64 bits).isFinite = true) :
    (∃ s, UnpackedFloat.unpack Format.binary64 bits = .zero s ∧
      UnpackedFloat.pack Format.binary64 (.zero s) = bits) ∨
    ∃ s m e, ∃ h : Canonical m e,
      UnpackedFloat.unpack Format.binary64 bits = .finite s m e h.pos ∧
        UnpackedFloat.pack Format.binary64 (.finite s m e h.pos) = bits := by
  obtain ⟨s, e, m, rfl⟩ : ∃ (s : Sign) (e : BitVec 11) (m : BitVec 52),
      bits = packComponents Format.binary64 s e m :=
    ⟨_, _, _,
      (@packComponents_unpackSign_unpackExponent_unpackMantissa Format.binary64 bits).symm⟩
  have hm := m.isLt
  have he := e.isLt
  by_cases hzero : e.toNat = 0
  · obtain rfl : e = 0#11 := BitVec.eq_of_toNat_eq hzero
    by_cases hmantissa : m.toNat = 0
    · obtain rfl : m = 0#52 := BitVec.eq_of_toNat_eq hmantissa
      exact .inl ⟨s, unpack_zero s, rfl⟩
    · have hpos := Nat.pos_of_ne_zero hmantissa
      have hlog := (Nat.log2_lt hmantissa).mpr hm
      refine .inr ⟨s, m.toNat, -1074, ⟨hpos, by omega, by omega, by omega, .inr rfl⟩,
        unpack_subnormal s hpos, ?_⟩
      rw [pack_subnormal s hpos hm, BitVec.ofNat_toNat, BitVec.setWidth_eq]
  · by_cases hones : e.toNat = 2047
    · obtain rfl : e = -1#11 := BitVec.eq_of_toNat_eq hones
      rw [UnpackedFloat.unpack] at hfinite
      simp only [unpackExponent_packComponents, if_true] at hfinite
      split at hfinite <;> contradiction
    · have hlog : (2 ^ 52 + m.toNat).log2 = 52 :=
        (Nat.log2_eq_iff (by omega)).mpr ⟨by omega, by omega⟩
      refine .inr ⟨s, 2 ^ 52 + m.toNat, e.toNat - 1075,
        ⟨by omega, by omega, by omega, by omega, .inl hlog⟩, unpack_normal s m hones hzero, ?_⟩
      rw [pack_normal s _ hlog (by omega)]
      congr 1
      · rw [BitVec.ofNat_toNat, BitVec.setWidth_eq]
      · apply BitVec.eq_of_toNat_eq
        rw [BitVec.toNat_ofNat]
        omega

theorem pack_congr {u u' : UnpackedFloat}
    (h : UnpackedFloat.pack Format.binary64 u = UnpackedFloat.pack Format.binary64 u') :
    Float.Model.pack u = Float.Model.pack u' := by
  simp only [Float.Model.pack, h]

-- The two zeros, and the double with the given sign and magnitude.
def zero (s : Sign) : Float := .ofModel (.pack (.zero s))

def double (s : Sign) {m : ℕ} {e : ℤ} (h : Canonical m e) : Float :=
  .ofModel (.pack (.finite s m e h.pos))

theorem zero_or_double {x : Float} (hx : x.isFinite = true) :
    (∃ s, x = zero s) ∨ ∃ s m e, ∃ h : Canonical m e, x = double s h := by
  rcases unpack_finite x.toModel.toBits.toBitVec hx with ⟨s, -, hpack⟩ | ⟨s, m, e, h, -, hpack⟩
  · refine .inl ⟨s, Float.toBits_inj.mp (UInt64.toBitVec_inj.mp ?_)⟩
    exact hpack.symm
  · refine .inr ⟨s, m, e, h, Float.toBits_inj.mp (UInt64.toBitVec_inj.mp ?_)⟩
    exact hpack.symm

section

variable (s : Sign) {m : ℕ} {e : ℤ} (h : Canonical m e)

@[simp] theorem unpack_double : (double s h).toModel.unpack = .finite s m e h.pos :=
  h.unpack_pack s

@[simp] theorem abs_double : (double s h).abs = double .positive h := by
  change Float.ofModel (.pack (double s h).toModel.unpack.abs) = _
  rw [unpack_double]
  rfl

theorem neg_double : -double .positive h = double .negative h := by
  change Float.ofModel (.pack (double .positive h).toModel.unpack.neg) = _
  rw [unpack_double]
  rfl

theorem isInf_double : (double s h).isInf = false := by
  change (double s h).toModel.unpack.isInf = false
  rw [unpack_double]
  rfl

theorem double_beq_zero : (double s h == 0) = false := by
  change (double s h).toModel.unpack.beq (Float.toModel 0).unpack = false
  rw [unpack_double]
  cases s <;> rfl

theorem eq_double_of_beq {x : Float} (hbeq : (x == double s h) = true) : x = double s h := by
  obtain ⟨-, -, heq | ⟨-, hzero⟩ | ⟨-, hzero⟩⟩ := Float.beq_iff_ne_nan_and_eq.mp hbeq
  · exact heq
  · have hne := double_beq_zero s h
    rw [hzero] at hne
    contradiction
  · have hne := double_beq_zero s h
    rw [hzero] at hne
    contradiction

theorem toNat_toBits_double :
    (double s h).toBits.toNat = s.toBitVec.toNat * 2 ^ 63 +
      (if m.log2 = 52 then (e + 1075).toNat * 2 ^ 52 + (m - 2 ^ 52) else m) := by
  obtain ⟨hpos, hlog, hlow, hhigh, hfull⟩ := id h
  have hlt := h.lt_pow
  change (UnpackedFloat.pack Format.binary64 (.finite s m e h.pos)).toNat = _
  by_cases hnormal : m.log2 = 52
  · have hle : 2 ^ 52 ≤ m := hnormal ▸ Nat.log2_self_le hpos.ne'
    obtain ⟨biased, rfl⟩ : ∃ biased : ℕ, e = biased - 1075 := by
      refine ⟨(e + 1075).toNat, ?_⟩
      omega
    rw [if_pos hnormal, pack_normal s hpos hnormal (by omega), toNat_packComponents,
      toNat_ofNat_of_lt (by omega), BitVec.toNat_ofNat]
    omega
  · obtain rfl := hfull.resolve_left hnormal
    have hlt : m < 2 ^ 52 :=
      Nat.lt_log2_self.trans_le (Nat.pow_le_pow_right two_pos (by omega))
    rw [if_neg hnormal, pack_subnormal s hpos hlt, toNat_packComponents, toNat_ofNat_of_lt hlt,
      BitVec.toNat_zero, Nat.zero_mul, Nat.add_zero]

theorem toNat_toBitVec_le : s.toBitVec.toNat ≤ 1 := by
  cases s <;> decide

@[simp] theorem magnitude_double : magnitude (double s h) = ⟨m, e⟩ := by
  obtain ⟨hpos, hlog, hlow, hhigh, hfull⟩ := id h
  have hlt := h.lt_pow
  have hsign := toNat_toBitVec_le s
  change (if (double s h).toBits.toNat / 2 ^ 52 % 2 ^ 11 = 0 then
      Magnitude.mk ((double s h).toBits.toNat % 2 ^ 52) (-1074)
    else ⟨(double s h).toBits.toNat % 2 ^ 52 + 2 ^ 52,
      ((double s h).toBits.toNat / 2 ^ 52 % 2 ^ 11 : ℕ) - 1075⟩) = _
  rw [toNat_toBits_double]
  by_cases hnormal : m.log2 = 52
  · have hle : 2 ^ 52 ≤ m := hnormal ▸ Nat.log2_self_le hpos.ne'
    rw [if_pos hnormal, if_neg (by omega)]
    congr 1 <;> omega
  · have hlt : m < 2 ^ 52 :=
      Nat.lt_log2_self.trans_le (Nat.pow_le_pow_right two_pos (by omega))
    rw [if_neg hnormal, if_pos (by omega)]
    congr 1 <;> omega

theorem isNegative_double : isNegative (double s h) = true ↔ s = .negative := by
  obtain ⟨hpos, hlog, hlow, hhigh, hfull⟩ := id h
  have hlt := h.lt_pow
  change decide (2 ^ 63 ≤ (double s h).toBits.toNat) = true ↔ _
  have hmagnitude :
      (if m.log2 = 52 then (e + 1075).toNat * 2 ^ 52 + (m - 2 ^ 52) else m) < 2 ^ 63 := by
    split <;> omega
  rw [decide_eq_true_iff, toNat_toBits_double]
  cases s with
  | negative =>
      refine iff_of_true ?_ rfl
      change 2 ^ 63 ≤ 1 * 2 ^ 63 + _
      omega
  | positive =>
      refine iff_of_false ?_ (fun h => Sign.noConfusion h)
      change ¬2 ^ 63 ≤ 0 * 2 ^ 63 + _
      omega

end

end CandleScript.Number
