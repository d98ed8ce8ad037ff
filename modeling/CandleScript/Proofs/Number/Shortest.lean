import CandleScript.Proofs.Number.Nearest

namespace CandleScript.Number

theorem Magnitude.value_exact (m : ℕ) (e : ℤ) :
    (Magnitude.exact ⟨m, e⟩).value = m * 2 ^ e := by
  rw [Magnitude.exact, Decimal.value]
  by_cases hsign : 0 ≤ e
  · obtain ⟨n, rfl⟩ := Int.eq_ofNat_of_zero_le hsign
    rw [if_pos hsign]
    change ((m * 2 ^ n : ℕ) : ℚ) * 10 ^ (0 : ℤ) = _
    rw [Nat.cast_mul, Nat.cast_pow, Nat.cast_ofNat, zpow_natCast, zpow_zero, mul_one]
  · obtain ⟨n, rfl⟩ : ∃ n : ℕ, e = -n := ⟨(-e).toNat, by omega⟩
    rw [if_neg hsign]
    have hnatural : (- -(n : ℤ)).toNat = n := by omega
    change ((m * 5 ^ (- -(n : ℤ)).toNat : ℕ) : ℚ) * 10 ^ (-(n : ℤ)) = _
    rw [hnatural, Nat.cast_mul, Nat.cast_pow, zpow_neg, zpow_neg, zpow_natCast, zpow_natCast,
      mul_assoc]
    congr 1
    rw [show (10 : ℚ) = 5 * 2 by norm_num, mul_pow, mul_inv, ← mul_assoc]
    norm_num

-- A zero at the end moves into the exponent.
theorem value_stripZeros (fuel : ℕ) (d : Decimal) : (stripZeros fuel d).value = d.value := by
  induction fuel generalizing d with
  | zero => rfl
  | succ fuel ih =>
      rw [stripZeros]
      split
      · rename_i hzero
        rw [ih, Decimal.value, Decimal.value, zpow_add₀ (by norm_num), zpow_one]
        have hdigits : (d.digits : ℚ) = 10 * (d.digits / 10 : ℕ) := by
          exact_mod_cast (Nat.mul_div_cancel' (Nat.dvd_of_mod_eq_zero hzero.2)).symm
        rw [hdigits]
        ring
      · rfl

variable {x : Float} {tie : Tie}

theorem reads_of_nearestOf {num den : ℕ} {unit : ℤ} {d : Decimal}
    (h : nearestOf tie x num den unit = some d) : (d.toFloat == x) = true := by
  unfold nearestOf at h
  simp only at h
  split at h
  · rename_i hbelow
    split at h
    · rename_i habove
      split at h
      · exact Option.some.inj h ▸ hbelow
      split at h
      · exact Option.some.inj h ▸ habove
      cases tie with
      | up => exact Option.some.inj h ▸ habove
      | even =>
          simp only at h
          split at h
          · exact Option.some.inj h ▸ hbelow
          · exact Option.some.inj h ▸ habove
    · exact Option.some.inj h ▸ hbelow
  · split at h
    · rename_i habove
      exact Option.some.inj h ▸ habove
    · contradiction

-- The shortest digits of a double are read as that double.
theorem toFloat_shortest (tie : Tie) {m : ℕ} {e : ℤ} (h : Canonical m e) :
    (shortest tie (double .positive h)).toFloat = double .positive h := by
  have hexact : (Magnitude.exact ⟨m, e⟩).toFloat = double .positive h :=
    Decimal.toFloat_eq h (Magnitude.value_exact m e)
  rw [shortest, magnitude_double, Decimal.toFloat_congr (value_stripZeros 20 _)]
  -- a shorter decimal is only taken if it is read as the double, and all digits are otherwise
  cases hfound : (List.range 17).findSome? fun n => nearestOf tie (double .positive h)
    (Magnitude.fraction ⟨m, e⟩).1 (Magnitude.fraction ⟨m, e⟩).2
    (leadingExponent (Magnitude.fraction ⟨m, e⟩).1 (Magnitude.fraction ⟨m, e⟩).2 - (n : Nat)) with
  | none => exact hexact
  | some d =>
      obtain ⟨n, -, hnearest⟩ := List.exists_of_findSome?_eq_some hfound
      exact eq_double_of_beq .positive h (reads_of_nearestOf hnearest)

theorem digits_shortest_ne_zero (tie : Tie) {m : ℕ} {e : ℤ} (h : Canonical m e) :
    (shortest tie (double .positive h)).digits ≠ 0 := by
  intro hzero
  have hreads := toFloat_shortest tie h
  generalize shortest tie (double .positive h) = d at hzero hreads
  obtain ⟨_, exponent⟩ := d
  subst hzero
  rw [Decimal.toFloat_zero] at hreads
  have hunpack := congrArg (fun x => x.toModel.unpack) hreads
  simp only [unpack_double] at hunpack
  contradiction

end CandleScript.Number
