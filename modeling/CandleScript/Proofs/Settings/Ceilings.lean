import CandleScript.Proofs.Number.Whole
import CandleScript.Settings.Validate

namespace CandleScript

-- The key under which a ceiling is set.
def Limit.Kind.key : Limit.Kind → Settings.Key
  | seriesLength => .maxSeriesLength
  | operations => .maxOperations
  | executionTime => .maxExecutionMs

theorem Limit.Kind.key_inj {a b : Limit.Kind} (h : a.key = b.key) : a = b := by
  cases a <;> cases b <;> first | rfl | cases h

-- The ceiling of the time is told in whole milliseconds.
def Limits.ceiling (limits : Limits) : Limit.Kind → ℕ
  | .seriesLength => limits.maxSeriesLength
  | .operations => limits.maxOperations
  | .executionTime => limits.maxExecutionMs

def Limits.withCeiling (limits : Limits) (kind : Limit.Kind) (n : ℕ) : Limits :=
  match kind with
  | .seriesLength => { limits with maxSeriesLength := n }
  | .operations => { limits with maxOperations := n }
  | .executionTime => { limits with maxExecutionTime := nanosPerMs * n }

namespace Settings

theorem Key.name_inj {a b : Key} : a.name = b.name ↔ a = b := by
  cases a <;> cases b <;> decide

-- The settings in which one key is not given.
def Lookup.without (lookup : Lookup) (key : Key) : Lookup := fun name other =>
  if name = key.heading ∧ other = key.name then none else lookup name other

section

variable {lookup : Lookup} {key : Key}

theorem Lookup.raw_without (lookup : Lookup) (key : Key) :
    (lookup.without key).raw key = none :=
  if_pos ⟨rfl, rfl⟩

theorem Lookup.raw_without_of_ne {other : Key} (h : other ≠ key) :
    (lookup.without key).raw other = lookup.raw other :=
  if_neg fun hsame => h (Key.name_inj.mp hsame.2)

-- Only the value of its own key matters to a count.
theorem positiveCount_congr {other : Lookup} (h : lookup.raw key = other.raw key)
    (otherwise : ℕ) : positiveCount lookup key otherwise = positiveCount other key otherwise := by
  rw [positiveCount, positiveNumber, h]
  rfl

theorem positiveCount_of_none (h : lookup.raw key = none) {n : ℕ} (hn : 0 < n)
    (hlt : n < 2 ^ 53) : positiveCount lookup key n = .ok n := by
  obtain ⟨-, -, hwhole, hcount⟩ := Number.count_ofNat hn (hlt.trans (by decide))
  have hnumber : positiveNumber lookup key (Number.ofCount n) = .ok (Float.ofNat n) := by
    rw [positiveNumber, h]
    rfl
  rw [positiveCount, hnumber]
  change (if Number.isWhole (Float.ofNat n) then _ else _) = _
  rw [if_pos hwhole, hcount, Number.rounded_of_lt hlt, min_eq_left (by omega)]

theorem positiveCount_of_whole {n : ℕ} (hn : 0 < n) (hlt : n < 2 ^ 64)
    (hraw : lookup.raw key = some (toString n)) (otherwise : ℕ) :
    positiveCount lookup key otherwise = .ok (min (Number.rounded n) (2 ^ 64 - 1)) := by
  obtain ⟨hfinite, hpositive, hwhole, hcount⟩ := Number.count_ofNat hn hlt
  have hnumber (x : Float) : positiveNumber lookup key x = .ok (Float.ofNat n) := by
    rw [positiveNumber, hraw]
    simp only [Number.read_toString, hfinite]
    exact if_neg (by simpa using hpositive)
  rw [positiveCount, hnumber]
  change (if Number.isWhole (Float.ofNat n) then _ else _) = _
  rw [if_pos hwhole, hcount]

-- A ceiling as it is given, or the standard one.
def ceiling (lookup : Lookup) (kind : Limit.Kind) : Except Invalid ℕ :=
  positiveCount lookup kind.key (Limits.standard.ceiling kind)

theorem limits_eq (lookup : Lookup) :
    limits lookup = (do
      let length ← ceiling lookup .seriesLength
      let operations ← ceiling lookup .operations
      let time ← ceiling lookup .executionTime
      return ⟨length, operations, Limits.nanosPerMs * time⟩) :=
  rfl

theorem ceiling_of_none {kind : Limit.Kind} (h : lookup.raw kind.key = none) :
    ceiling lookup kind = .ok (Limits.standard.ceiling kind) := by
  cases kind <;> exact positiveCount_of_none h (by decide) (by decide)

theorem limits_of_none (h : ∀ kind : Limit.Kind, lookup.raw kind.key = none) :
    limits lookup = .ok .standard := by
  rw [limits_eq, ceiling_of_none (h _), ceiling_of_none (h _), ceiling_of_none (h _)]
  rfl

-- A key that is given well makes a difference to its own ceiling and to nothing else.
theorem limits_of_ceiling {kind : Limit.Kind} {n : ℕ} (h : ceiling lookup kind = .ok n) :
    limits lookup =
      (limits (lookup.without kind.key)).map fun found => found.withCeiling kind n := by
  have hstandard := ceiling_of_none (lookup.raw_without kind.key)
  have hother (other : Limit.Kind) (hne : other ≠ kind) :
      ceiling lookup other = ceiling (lookup.without kind.key) other :=
    positiveCount_congr (Lookup.raw_without_of_ne fun hkey => hne (Limit.Kind.key_inj hkey)).symm _
  rw [limits_eq, limits_eq]
  cases kind with
  | seriesLength =>
      rw [h, hstandard, hother .operations nofun, hother .executionTime nofun]
      rcases ceiling (lookup.without _) .operations with e | operations
      · rfl
      rcases ceiling (lookup.without _) .executionTime with e | time <;> rfl
  | operations =>
      rw [h, hstandard, hother .seriesLength nofun, hother .executionTime nofun]
      rcases ceiling (lookup.without _) .seriesLength with e | length
      · rfl
      rcases ceiling (lookup.without _) .executionTime with e | time <;> rfl
  | executionTime =>
      rw [h, hstandard, hother .seriesLength nofun, hother .operations nofun]
      rcases ceiling (lookup.without _) .seriesLength with e | length
      · rfl
      rcases ceiling (lookup.without _) .operations with e | operations <;> rfl

theorem ceiling_of_whole {kind : Limit.Kind} {n : ℕ} (hn : 0 < n) (hlt : n < 2 ^ 64)
    (hraw : lookup.raw kind.key = some (toString n)) :
    ceiling lookup kind = .ok (min (Number.rounded n) (2 ^ 64 - 1)) :=
  positiveCount_of_whole hn hlt hraw _

end

end Settings

-- What becomes of a ceiling that is given as a whole number of 64 bits. It is
-- never refused, and the other settings are judged as if it were not there; but
-- it is kept to 53 binary digits only. So it is taken as it is written exactly
-- if its further digits are zeros or it is the largest of all.
theorem Settings.limits_of_whole {lookup : Lookup} {kind : Limit.Kind} {n : ℕ} (hn : 0 < n)
    (hlt : n < 2 ^ 64) (hraw : lookup.raw kind.key = some (toString n)) :
    let taken := min (Number.rounded n) (2 ^ 64 - 1)
    limits lookup =
        (limits (lookup.without kind.key)).map (fun found => found.withCeiling kind taken) ∧
      ((∀ other ≠ kind, lookup.raw other.key = none) →
        limits lookup = .ok (Limits.standard.withCeiling kind taken)) ∧
      (taken = n ↔ 2 ^ (n.log2 - 52) ∣ n ∨ n = 2 ^ 64 - 1) := by
  intro taken
  have hlimits := limits_of_ceiling (ceiling_of_whole hn hlt hraw)
  refine ⟨hlimits, ?_, Number.min_rounded_eq_self_iff hlt⟩
  intro hothers
  have hnone (other : Limit.Kind) : (lookup.without kind.key).raw other.key = none := by
    by_cases hother : other = kind
    · rw [hother, Lookup.raw_without]
    · rw [Lookup.raw_without_of_ne fun hkey => hother (Limit.Kind.key_inj hkey)]
      exact hothers other hother
  rw [hlimits, limits_of_none hnone]
  rfl

-- Settings that give nothing but a ceiling of operations.
def operationsSettings (n : ℕ) : Sections :=
  Bindings.empty.set "limits" (Bindings.empty.set "max_operations" (some (toString n)))

-- Of the 54 binary digits the last one is a zero.
theorem Settings.limits_of_whole_even :
    Sections.read "[limits]\nmax_operations = 9007199254740994\n" =
        .ok (operationsSettings 9007199254740994) ∧
      limits (operationsSettings 9007199254740994).value? =
        .ok ⟨100000, 9007199254740994, 5000 * Limits.nanosPerMs⟩ := by
  have hraw : Lookup.raw (operationsSettings 9007199254740994).value?
      Limit.Kind.operations.key = some (toString 9007199254740994) := rfl
  have hothers : ∀ other ≠ Limit.Kind.operations,
      Lookup.raw (operationsSettings 9007199254740994).value? other.key = none := by
    intro other hother
    cases other <;> first | rfl | contradiction
  have hlimits := (limits_of_whole (by decide) (by decide) hraw).2.1 hothers
  refine ⟨rfl, hlimits.trans ?_⟩
  decide +kernel

-- The least number that is not taken as it is written.
theorem Settings.limits_odd :
    Sections.read "[limits]\nmax_operations = 9007199254740993\n" =
        .ok (operationsSettings 9007199254740993) ∧
      limits (operationsSettings 9007199254740993).value? =
        .ok ⟨100000, 9007199254740992, 5000 * Limits.nanosPerMs⟩ :=
  ⟨rfl, by decide +kernel⟩

end CandleScript
