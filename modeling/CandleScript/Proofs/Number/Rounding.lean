import Mathlib

namespace CandleScript.Number

open Float.Model Float.Model.UnpackedFloat

-- A mantissa with its two further bits stands for `r`: the mantissa is the
-- whole part, and the bits place the rest among zero, one half and one.
structure Holds (em : ExtendedMantissa) (r : ℚ) : Prop where
  le : (em.mantissa : ℚ) ≤ r
  lt : r < em.mantissa + 1
  round : em.roundBit = true ↔ (em.mantissa : ℚ) + 1 / 2 ≤ r
  sticky : em.stickyBit = true ↔ r ≠ em.mantissa ∧ r ≠ em.mantissa + 1 / 2

namespace Holds

variable {em em' : ExtendedMantissa} {r : ℚ}

theorem floor_eq (h : Holds em r) : ⌊r⌋₊ = em.mantissa :=
  (Nat.floor_eq_iff ((Nat.cast_nonneg _).trans h.le)).mpr ⟨h.le, h.lt⟩

theorem unique (h : Holds em r) (h' : Holds em' r) : em = em' := by
  have hmantissa : em.mantissa = em'.mantissa := h.floor_eq.symm.trans h'.floor_eq
  have hround := h.round
  have hsticky := h.sticky
  rw [hmantissa, ← h'.round] at hround
  rw [hmantissa, ← h'.sticky] at hsticky
  cases em
  cases em'
  rw [ExtendedMantissa.mk.injEq]
  exact ⟨hmantissa, Bool.eq_iff_iff.mpr hround, Bool.eq_iff_iff.mpr hsticky⟩

theorem exact (m : ℕ) : Holds (.ofMantissaAndAccuracy m .exact) m where
  le := le_refl _
  lt := lt_add_one _
  round := by simp [ExtendedMantissa.ofMantissaAndAccuracy]
  sticky := by simp [ExtendedMantissa.ofMantissaAndAccuracy]

theorem below_half (m : ℕ) {f : ℚ} (hpos : 0 < f) (hhalf : f < 1 / 2) :
    Holds (.ofMantissaAndAccuracy m (.inexact .lt)) (m + f) where
  le := by simp only [ExtendedMantissa.ofMantissaAndAccuracy]; linarith
  lt := by simp only [ExtendedMantissa.ofMantissaAndAccuracy]; linarith
  round := by simpa [ExtendedMantissa.ofMantissaAndAccuracy] using hhalf
  sticky := by simpa [ExtendedMantissa.ofMantissaAndAccuracy, -one_div] using ⟨hpos.ne', hhalf.ne⟩

theorem at_half (m : ℕ) : Holds (.ofMantissaAndAccuracy m (.inexact .eq)) (m + 1 / 2) where
  le := by simp only [ExtendedMantissa.ofMantissaAndAccuracy]; linarith
  lt := by simp only [ExtendedMantissa.ofMantissaAndAccuracy]; linarith
  round := by simp [ExtendedMantissa.ofMantissaAndAccuracy]
  sticky := by simp [ExtendedMantissa.ofMantissaAndAccuracy]

theorem above_half (m : ℕ) {f : ℚ} (hhalf : 1 / 2 < f) (hone : f < 1) :
    Holds (.ofMantissaAndAccuracy m (.inexact .gt)) (m + f) where
  le := by simp only [ExtendedMantissa.ofMantissaAndAccuracy]; linarith
  lt := by simp only [ExtendedMantissa.ofMantissaAndAccuracy]; linarith
  round := by simpa [ExtendedMantissa.ofMantissaAndAccuracy] using hhalf.le
  sticky := by
    have hpos : 0 < f := by linarith
    simpa [ExtendedMantissa.ofMantissaAndAccuracy, -one_div] using ⟨hpos.ne', hhalf.ne'⟩

theorem inexact_iff (h : Holds em r) :
    (em.roundBit || em.stickyBit) = true ↔ r ≠ em.mantissa := by
  rw [Bool.or_eq_true, h.round, h.sticky]
  constructor
  · rintro (hround | hsticky)
    · intro heq
      linarith
    · exact hsticky.1
  · intro hne
    by_cases hhalf : r = em.mantissa + 1 / 2
    · exact .inl (le_of_eq hhalf.symm)
    · exact .inr ⟨hne, hhalf⟩

-- Halving moves the last bit of the mantissa into the round bit.
theorem shiftRightOne (h : Holds em r) : Holds em.shiftRightOne (r / 2) := by
  obtain ⟨hle, hlt, -, -⟩ := id h
  have hinexact := h.inexact_iff
  have hdivision : (em.mantissa : ℚ) = 2 * (em.mantissa / 2 : ℕ) + (em.mantissa % 2 : ℕ) := by
    exact_mod_cast (Nat.div_add_mod em.mantissa 2).symm
  rw [hdivision] at hle hlt hinexact
  have hround : (em.mantissa % 2 != 0) = true ↔ ((em.mantissa / 2 : ℕ) : ℚ) + 1 / 2 ≤ r / 2 := by
    rcases Nat.mod_two_eq_zero_or_one em.mantissa with hbit | hbit
    · simp only [hbit, Nat.cast_zero, bne_self_eq_false, Bool.false_eq_true, false_iff, not_le] at *
      linarith
    · simp only [hbit, Nat.cast_one, bne_iff_ne, ne_eq, one_ne_zero, not_false_eq_true,
        true_iff] at *
      linarith
  -- half of an even mantissa is whole, and half of an odd one ends halfway
  have hsticky : (em.roundBit || em.stickyBit) = true ↔
      r / 2 ≠ ((em.mantissa / 2 : ℕ) : ℚ) ∧ r / 2 ≠ ((em.mantissa / 2 : ℕ) : ℚ) + 1 / 2 := by
    rw [hinexact]
    rcases Nat.mod_two_eq_zero_or_one em.mantissa with hbit | hbit
    · rw [hbit, Nat.cast_zero] at hlt ⊢
      constructor
      · intro hne
        exact ⟨fun heq => hne (by linarith), fun heq => by linarith⟩
      · intro hne heq
        exact hne.1 (by linarith)
    · rw [hbit, Nat.cast_one] at hle ⊢
      constructor
      · intro hne
        exact ⟨fun heq => by linarith, fun heq => hne (by linarith)⟩
      · intro hne heq
        exact hne.2 (by linarith)
  have hbit : ((em.mantissa % 2 : ℕ) : ℚ) ≤ 1 := by
    exact_mod_cast Nat.le_of_lt_succ (Nat.mod_lt em.mantissa two_pos)
  have hbit' : (0 : ℚ) ≤ (em.mantissa % 2 : ℕ) := Nat.cast_nonneg _
  refine ⟨?_, ?_, hround, hsticky⟩
  · change ((em.mantissa / 2 : ℕ) : ℚ) ≤ r / 2
    linarith
  · change r / 2 < ((em.mantissa / 2 : ℕ) : ℚ) + 1
    linarith

theorem shiftRight (h : Holds em r) (n : ℕ) : Holds (em >>> n) (r / 2 ^ n) := by
  induction n with
  | zero =>
      rw [pow_zero, div_one]
      exact h
  | succ n ih =>
      have hstep := ih.shiftRightOne
      rw [div_div, ← pow_succ] at hstep
      exact hstep

end Holds

-- What a division leaves over decides about the accuracy of its result.
theorem holds_div (a : ℕ) {b : ℕ} (hb : 0 < b) :
    Holds (.ofMantissaAndAccuracy (a / b) (accuracyOfFraction (a % b) b)) (a / b) := by
  have hpos : (0 : ℚ) < b := Nat.cast_pos.mpr hb
  have hdivision : (a : ℚ) / b = (a / b : ℕ) + (a % b : ℕ) / b := by
    rw [div_eq_iff hpos.ne', add_mul, div_mul_cancel₀ _ hpos.ne']
    exact_mod_cast (Nat.div_add_mod' a b).symm
  have hrest : ((a % b : ℕ) : ℚ) / b < 1 := by
    rw [div_lt_one hpos]
    exact_mod_cast Nat.mod_lt a hb
  rw [hdivision]
  rw [accuracyOfFraction]
  by_cases hzero : a % b = 0
  · rw [if_pos hzero, hzero, Nat.cast_zero, zero_div, add_zero]
    exact .exact _
  · rw [if_neg hzero]
    have hsome : (0 : ℚ) < (a % b : ℕ) / b :=
      div_pos (Nat.cast_pos.mpr (Nat.pos_of_ne_zero hzero)) hpos
    rcases lt_trichotomy (2 * (a % b)) b with hless | heq | hmore
    · rw [Nat.compare_eq_lt.mpr hless]
      refine .below_half _ hsome ?_
      rw [div_lt_iff₀ hpos]
      have hcast : ((2 * (a % b) : ℕ) : ℚ) < b := Nat.cast_lt.mpr hless
      push_cast at hcast
      linarith
    · rw [Nat.compare_eq_eq.mpr heq]
      have hhalf : ((a % b : ℕ) : ℚ) / b = 1 / 2 := by
        rw [div_eq_iff hpos.ne']
        have hcast : ((2 * (a % b) : ℕ) : ℚ) = b := congrArg Nat.cast heq
        push_cast at hcast
        linarith
      rw [hhalf]
      exact .at_half _
    · rw [Nat.compare_eq_gt.mpr hmore]
      refine .above_half _ ?_ hrest
      rw [lt_div_iff₀ hpos]
      have hcast : (b : ℚ) < (2 * (a % b) : ℕ) := Nat.cast_lt.mpr hmore
      push_cast at hcast
      linarith

@[simp] theorem mantissa_ofMantissaAndAccuracy (m : ℕ) (accuracy : Accuracy) :
    (ExtendedMantissa.ofMantissaAndAccuracy m accuracy).mantissa = m := by
  cases accuracy with
  | exact => rfl
  | inexact order => cases order <;> rfl

-- The exponent of the last bit of a double next to `q`.
def lastBit (q : ℚ) : ℤ := max (Int.log 2 q - 52) (-1074)

theorem targetExponent_eq (total : ℤ) :
    Format.binary64.targetExponent total = max (total - 53) (-1074) := rfl

theorem le_lastBit {q : ℚ} {e : ℤ} (h : (2 : ℚ) ^ (e + 52) ≤ q) : e ≤ lastBit q := by
  have hlog := (Int.zpow_le_iff_le_log one_lt_two (lt_of_lt_of_le (zpow_pos two_pos _) h)).mp h
  rw [lastBit]
  omega

theorem zpow_le_mantissa {m : ℕ} (hm : m ≠ 0) (e : ℤ) : (2 : ℚ) ^ (m.log2 + e : ℤ) ≤ m * 2 ^ e := by
  rw [zpow_add₀ two_ne_zero, zpow_natCast]
  apply mul_le_mul_of_nonneg_right _ (zpow_pos two_pos e).le
  exact_mod_cast Nat.log2_self_le hm

theorem mantissa_lt_zpow (m : ℕ) (e : ℤ) :
    ((m : ℚ) + 1) * 2 ^ e ≤ (2 : ℚ) ^ (m.log2 + 1 + e : ℤ) := by
  rw [zpow_add₀ two_ne_zero]
  apply mul_le_mul_of_nonneg_right _ (zpow_pos two_pos e).le
  exact_mod_cast Nat.lt_log2_self

theorem log_eq_of_mantissa {q : ℚ} {m : ℕ} {e : ℤ} (hm : m ≠ 0) (hle : m ≤ q / 2 ^ e)
    (hlt : q / 2 ^ e < m + 1) : Int.log 2 q = m.log2 + e := by
  have hunit : (0 : ℚ) < 2 ^ e := zpow_pos two_pos e
  rw [le_div_iff₀ hunit] at hle
  rw [div_lt_iff₀ hunit] at hlt
  have hlow := (zpow_le_mantissa hm e).trans hle
  have hhigh := hlt.trans_le (mantissa_lt_zpow m e)
  have hq : 0 < q := lt_of_lt_of_le (zpow_pos two_pos _) hlow
  have hlog := (Int.zpow_le_iff_le_log one_lt_two hq).mp hlow
  have hlog' := (Int.lt_zpow_iff_log_lt one_lt_two hq).mp hhigh
  omega

theorem exists_shiftToTargetExponent {q : ℚ} (hq : 0 < q) {m : ℕ} {e : ℤ} {accuracy : Accuracy}
    (h : Holds (.ofMantissaAndAccuracy m accuracy) (q / 2 ^ e)) (he : e ≤ lastBit q) :
    ∃ em, shiftToTargetExponent Format.binary64 m e accuracy = (em, lastBit q) ∧
      Holds em (q / 2 ^ lastBit q) := by
  have hle := h.le
  have hlt := h.lt
  rw [mantissa_ofMantissaAndAccuracy] at hle hlt
  have htarget : Format.binary64.targetExponent (totalExponent m e) = lastBit q := by
    rw [targetExponent_eq, totalExponent]
    by_cases hm : m = 0
    · -- nothing is left of the mantissa, so the last bit is that of the smallest doubles
      have hlog : Int.log 2 q < e := by
        rw [← Int.lt_zpow_iff_log_lt one_lt_two hq]
        rw [hm, Nat.cast_zero, zero_add, div_lt_one (zpow_pos two_pos e)] at hlt
        exact hlt
      rw [lastBit] at he ⊢
      rw [hm, Nat.log2_zero]
      omega
    · rw [lastBit, log_eq_of_mantissa hm hle hlt]
      congr 1
      ring
  have hshift : e + ((lastBit q - e).toNat : ℤ) = lastBit q := by
    rw [Int.toNat_of_nonneg (Int.sub_nonneg_of_le he)]
    ring
  have hshifted := h.shiftRight (lastBit q - e).toNat
  rw [div_div, ← zpow_natCast, ← zpow_add₀ two_ne_zero, hshift] at hshifted
  refine ⟨_, ?_, hshifted⟩
  rw [shiftToTargetExponent, htarget, shiftToExponent]
  simp only [hshift]

-- `u` is what `q` is rounded to.
def Rounds (q : ℚ) (u : UnpackedFloat) : Prop :=
  ∃ m e accuracy, Holds (.ofMantissaAndAccuracy m accuracy) (q / 2 ^ e) ∧ e ≤ lastBit q ∧
    roundWithAccuracy Format.binary64 .positive m e accuracy = u

-- What is done once the mantissa is lined up with the last bit.
def finishRounding (em : ExtendedMantissa) (e : ℤ) : UnpackedFloat :=
  let (last, e) := shiftToTargetExponent Format.binary64 em.roundedMantissa e .exact
  if h : last.mantissa = 0 then .zero .positive
  else .finite .positive last.mantissa e (Nat.pos_of_ne_zero h)

theorem Rounds.exists_finish {q : ℚ} (hq : 0 < q) {u : UnpackedFloat} (h : Rounds q u) :
    ∃ em, Holds em (q / 2 ^ lastBit q) ∧ u = finishRounding em (lastBit q) := by
  obtain ⟨m, e, accuracy, hholds, he, rfl⟩ := h
  obtain ⟨em, hshift, hem⟩ := exists_shiftToTargetExponent hq hholds he
  refine ⟨em, hem, ?_⟩
  rw [roundWithAccuracy, hshift]
  rfl

theorem Rounds.unique {q : ℚ} (hq : 0 < q) {u u' : UnpackedFloat} (h : Rounds q u)
    (h' : Rounds q u') : u = u' := by
  obtain ⟨em, hem, rfl⟩ := h.exists_finish hq
  obtain ⟨em', hem', rfl⟩ := h'.exists_finish hq
  rw [hem.unique hem']

-- A double is rounded to itself, its mantissa being lined up already.
theorem shiftToTargetExponent_exact {m : ℕ} (hm : 0 < m) {e : ℤ}
    (he : lastBit (m * 2 ^ e) = e) :
    shiftToTargetExponent Format.binary64 m e .exact =
      (.ofMantissaAndAccuracy m .exact, e) := by
  have hunit : (0 : ℚ) < 2 ^ e := zpow_pos two_pos e
  have hexact : Holds (.ofMantissaAndAccuracy m .exact) ((m * 2 ^ e : ℚ) / 2 ^ e) := by
    rw [mul_div_cancel_right₀ _ hunit.ne']
    exact .exact m
  obtain ⟨em, hshift, hem⟩ := exists_shiftToTargetExponent
    (mul_pos (Nat.cast_pos.mpr hm) hunit) hexact (le_of_eq he.symm)
  rw [he] at hshift hem
  rw [hshift, hem.unique hexact]

theorem roundWithAccuracy_self {m : ℕ} (hm : 0 < m) {e : ℤ} (he : lastBit (m * 2 ^ e) = e) :
    roundWithAccuracy Format.binary64 .positive m e .exact = .finite .positive m e hm := by
  have hshift := shiftToTargetExponent_exact hm he
  have hrounded : (ExtendedMantissa.ofMantissaAndAccuracy m .exact).roundedMantissa = m := rfl
  rw [roundWithAccuracy, hshift]
  change finishRounding (.ofMantissaAndAccuracy m .exact) e = _
  rw [finishRounding, hrounded, hshift]
  exact dif_neg hm.ne'

theorem rounds_self {m : ℕ} (hm : 0 < m) {e : ℤ} (he : lastBit (m * 2 ^ e) = e) :
    Rounds (m * 2 ^ e) (.finite .positive m e hm) := by
  refine ⟨m, e, .exact, ?_, le_of_eq he.symm, roundWithAccuracy_self hm he⟩
  rw [mul_div_cancel_right₀ _ (zpow_pos two_pos e).ne']
  exact .exact m

-- Above the smallest doubles a mantissa has all its bits.
theorem le_mantissa {q : ℚ} (hq : 0 < q) {em : ExtendedMantissa}
    (h : Holds em (q / 2 ^ lastBit q)) (hnormal : -1074 < lastBit q) : 2 ^ 52 ≤ em.mantissa := by
  rw [← h.floor_eq]
  apply Nat.le_floor
  rw [le_div_iff₀ (zpow_pos two_pos _)]
  have hlog := Int.zpow_log_le_self one_lt_two hq
  have hexponent : Int.log 2 q = 52 + lastBit q := by
    rw [lastBit] at hnormal ⊢
    omega
  rw [hexponent, Nat.cast_ofNat, zpow_add₀ two_ne_zero] at hlog
  exact_mod_cast hlog

theorem mantissa_le_roundedMantissa (em : ExtendedMantissa) : em.mantissa ≤ em.roundedMantissa := by
  obtain ⟨m, round, sticky⟩ := em
  cases round <;> cases sticky <;>
    simp [ExtendedMantissa.roundedMantissa, ExtendedMantissa.accuracy, Accuracy.roundToNearestEven]

theorem roundedMantissa_le (em : ExtendedMantissa) : em.roundedMantissa ≤ em.mantissa + 1 := by
  obtain ⟨m, round, sticky⟩ := em
  cases round <;> cases sticky <;>
    simp [ExtendedMantissa.roundedMantissa, ExtendedMantissa.accuracy, Accuracy.roundToNearestEven]
  omega

-- Rounding up can lengthen the mantissa, and then it is lined up once more.
theorem le_lastBit_rounded {q : ℚ} (hq : 0 < q) {em : ExtendedMantissa}
    (h : Holds em (q / 2 ^ lastBit q)) :
    lastBit q ≤ lastBit (em.roundedMantissa * 2 ^ lastBit q) := by
  by_cases hnormal : -1074 < lastBit q
  · have hmantissa : 2 ^ 52 ≤ em.roundedMantissa :=
      (le_mantissa hq h hnormal).trans (mantissa_le_roundedMantissa em)
    apply le_lastBit
    rw [add_comm, zpow_add₀ two_ne_zero]
    apply mul_le_mul_of_nonneg_right _ (zpow_pos two_pos _).le
    exact_mod_cast hmantissa
  · exact (not_lt.mp hnormal).trans (le_max_right _ _)

-- What is rounded is a zero or a double whose last bit is that of the rounded
-- mantissa.
theorem finishRounding_cases {q : ℚ} (hq : 0 < q) {em : ExtendedMantissa}
    (h : Holds em (q / 2 ^ lastBit q)) :
    finishRounding em (lastBit q) = .zero .positive ∨
      0 < em.roundedMantissa ∧ ∃ m, ∃ hm : 0 < m, finishRounding em (lastBit q) =
        .finite .positive m (lastBit (em.roundedMantissa * 2 ^ lastBit q)) hm := by
  by_cases hsome : em.roundedMantissa = 0
  · have hlast : lastBit q = -1074 := by
      refine le_antisymm ?_ (le_max_right _ _)
      by_contra hnormal
      have hmantissa := (le_mantissa hq h (not_le.mp hnormal)).trans
        (mantissa_le_roundedMantissa em)
      omega
    rw [hlast, finishRounding, hsome]
    exact .inl rfl
  · have hpos : (0 : ℚ) < em.roundedMantissa * 2 ^ lastBit q :=
      mul_pos (Nat.cast_pos.mpr (Nat.pos_of_ne_zero hsome)) (zpow_pos two_pos _)
    have hexact : Holds (.ofMantissaAndAccuracy em.roundedMantissa .exact)
        ((em.roundedMantissa * 2 ^ lastBit q : ℚ) / 2 ^ lastBit q) := by
      rw [mul_div_cancel_right₀ _ (zpow_pos two_pos _).ne']
      exact .exact _
    obtain ⟨last, hshift, -⟩ := exists_shiftToTargetExponent hpos hexact (le_lastBit_rounded hq h)
    rw [finishRounding, hshift]
    simp only
    by_cases hzero : last.mantissa = 0
    · exact .inl (dif_pos hzero)
    · exact .inr ⟨Nat.pos_of_ne_zero hsome, _, Nat.pos_of_ne_zero hzero, dif_neg hzero⟩

-- What is too large for a double is rounded to what is packed as infinity.
theorem Rounds.pack_of_large {q : ℚ} {u : UnpackedFloat} (h : Rounds q u)
    (hlarge : 2 ^ (1024 : ℤ) ≤ q) :
    UnpackedFloat.pack Format.binary64 u = packedInfinity Format.binary64 .positive := by
  have hq : 0 < q := lt_of_lt_of_le (zpow_pos two_pos _) hlarge
  obtain ⟨em, hem, rfl⟩ := h.exists_finish hq
  have hlast : 972 ≤ lastBit q := le_lastBit hlarge
  have hmantissa : 2 ^ 52 ≤ em.roundedMantissa :=
    (le_mantissa hq hem (by omega)).trans (mantissa_le_roundedMantissa em)
  have hpos : (0 : ℚ) < em.roundedMantissa * 2 ^ lastBit q :=
    mul_pos (Nat.cast_pos.mpr (by omega)) (zpow_pos two_pos _)
  have hexact : Holds (.ofMantissaAndAccuracy em.roundedMantissa .exact)
      ((em.roundedMantissa * 2 ^ lastBit q : ℚ) / 2 ^ lastBit q) := by
    rw [mul_div_cancel_right₀ _ (zpow_pos two_pos _).ne']
    exact .exact _
  have hle := le_lastBit_rounded hq hem
  obtain ⟨last, hshift, hholds⟩ := exists_shiftToTargetExponent hpos hexact hle
  have hsome := le_mantissa hpos hholds (by omega)
  rw [finishRounding, hshift]
  simp only
  rw [dif_neg (by omega), UnpackedFloat.pack]
  apply if_pos
  rw [Format.exponentBias]
  simp only [Nat.reduceSub, Nat.reducePow]
  omega

theorem Rounds.eq_zero_of_small {q : ℚ} (hq : 0 < q) {u : UnpackedFloat} (h : Rounds q u)
    (hsmall : q < 2 ^ (-1075 : ℤ)) : u = .zero .positive := by
  obtain ⟨em, hem, rfl⟩ := h.exists_finish hq
  have hlog := (Int.lt_zpow_iff_log_lt one_lt_two hq).mp hsmall
  have hlast : lastBit q = -1074 := by
    rw [lastBit]
    omega
  rw [hlast] at hem ⊢
  have hhalf : q / 2 ^ (-1074 : ℤ) < 1 / 2 := by
    rw [div_lt_iff₀ (zpow_pos two_pos _)]
    refine lt_of_lt_of_eq hsmall ?_
    rw [show (-1075 : ℤ) = -1 + -1074 by rfl, zpow_add₀ two_ne_zero]
    norm_num
  have hmantissa : em.mantissa = 0 := by
    rw [← hem.floor_eq, Nat.floor_eq_zero]
    linarith
  have hround : em.roundBit = false := by
    rw [Bool.eq_false_iff, Ne, hem.round, hmantissa, Nat.cast_zero]
    linarith
  have hzero : em.roundedMantissa = 0 := by
    obtain ⟨m, round, sticky⟩ := em
    subst hround
    subst hmantissa
    cases sticky <;> rfl
  rw [finishRounding, hzero]
  rfl

-- Products and quotients of doubles are rounded once.
theorem rounds_mul {m₁ m₂ : ℕ} {e₁ e₂ : ℤ} (h₁ : 0 < m₁) (h₂ : 0 < m₂)
    (hfits : e₁ + e₂ ≤ lastBit (m₁ * 2 ^ e₁ * (m₂ * 2 ^ e₂))) :
    Rounds (m₁ * 2 ^ e₁ * (m₂ * 2 ^ e₂)) (UnpackedFloat.mul Format.binary64
      (.finite .positive m₁ e₁ h₁) (.finite .positive m₂ e₂ h₂)) := by
  refine ⟨m₁ * m₂, e₁ + e₂, .exact, ?_, hfits, rfl⟩
  have hq : (m₁ * 2 ^ e₁ * (m₂ * 2 ^ e₂) : ℚ) / 2 ^ (e₁ + e₂) = (m₁ * m₂ : ℕ) := by
    rw [div_eq_iff (zpow_pos two_pos _).ne', zpow_add₀ two_ne_zero]
    push_cast
    ring
  rw [hq]
  exact .exact _

theorem le_log_div {m₁ m₂ : ℕ} (e₁ e₂ : ℤ) (h₁ : 0 < m₁) (h₂ : 0 < m₂) :
    m₁.log2 + e₁ - (m₂.log2 + 1 + e₂) ≤ Int.log 2 ((m₁ * 2 ^ e₁ : ℚ) / (m₂ * 2 ^ e₂)) := by
  have hpos : (0 : ℚ) < m₂ * 2 ^ e₂ := mul_pos (Nat.cast_pos.mpr h₂) (zpow_pos two_pos e₂)
  have hlow := zpow_le_mantissa h₁.ne' e₁
  have hhigh : (m₂ * 2 ^ e₂ : ℚ) ≤ 2 ^ (m₂.log2 + 1 + e₂ : ℤ) := by
    refine le_trans ?_ (mantissa_lt_zpow m₂ e₂)
    exact mul_le_mul_of_nonneg_right (lt_add_one _).le (zpow_pos two_pos e₂).le
  have hquotient := div_le_div₀ ((zpow_pos two_pos _).le.trans hlow) hlow hpos hhigh
  rw [← zpow_sub₀ two_ne_zero] at hquotient
  have hsome := lt_of_lt_of_le (zpow_pos two_pos _) hquotient
  exact (Int.zpow_le_iff_le_log one_lt_two hsome).mp hquotient

theorem rounds_div {m₁ m₂ : ℕ} {e₁ e₂ : ℤ} (h₁ : 0 < m₁) (h₂ : 0 < m₂) :
    Rounds (m₁ * 2 ^ e₁ / (m₂ * 2 ^ e₂)) (UnpackedFloat.div Format.binary64
      (.finite .positive m₁ e₁ h₁) (.finite .positive m₂ e₂ h₂)) := by
  obtain ⟨t, ht⟩ : ∃ t, t = min (e₁ - e₂) (Format.binary64.targetExponent
    (totalExponent m₁ e₁ - totalExponent m₂ e₂)) := ⟨_, rfl⟩
  have hshift : ((e₁ - e₂ - t).toNat : ℤ) = e₁ - e₂ - t := by
    apply Int.toNat_of_nonneg
    omega
  have hquotient : (m₁ * 2 ^ e₁ : ℚ) / (m₂ * 2 ^ e₂) / 2 ^ t =
      (m₁ <<< (e₁ - e₂ - t).toNat : ℕ) / (m₂ : ℕ) := by
    rw [Nat.shiftLeft_eq]
    push_cast
    rw [← zpow_natCast, hshift, zpow_sub₀ two_ne_zero, zpow_sub₀ two_ne_zero]
    field_simp
  refine ⟨(m₁ <<< (e₁ - e₂ - t).toNat) / m₂, t,
    accuracyOfFraction ((m₁ <<< (e₁ - e₂ - t).toNat) % m₂) m₂, ?_, ?_, ?_⟩
  · rw [hquotient]
    exact holds_div _ h₂
  · -- the quotient is large enough for a mantissa with all its bits
    have hlog := le_log_div e₁ e₂ h₁ h₂
    rw [targetExponent_eq, totalExponent, totalExponent] at ht
    rw [lastBit]
    omega
  · rw [ht]
    rfl

end CandleScript.Number
