import CandleScript.Proofs.Indicator.Warmup

namespace CandleScript.Indicator

open Series (has stateAfter)

section

variable {basic last bands : TrendBands} {close : Float}

-- Unless the last close was below it, the lower band stays or rises.
theorem nextBands_lower (h : ¬close < last.lower) :
    (nextBands basic (some last) (some close)).lower = last.lower ∨
      last.lower < (nextBands basic (some last) (some close)).lower := by
  simp only [nextBands]
  split
  · rename_i hmoves
    rw [Bool.or_eq_true, decide_eq_true_eq, decide_eq_true_eq] at hmoves
    exact .inr (hmoves.resolve_right h)
  · exact .inl rfl

-- Unless the last close was above it, the upper band stays or falls.
theorem nextBands_upper (h : ¬last.upper < close) :
    (nextBands basic (some last) (some close)).upper = last.upper ∨
      (nextBands basic (some last) (some close)).upper < last.upper := by
  simp only [nextBands]
  split
  · rename_i hmoves
    rw [Bool.or_eq_true, decide_eq_true_eq, decide_eq_true_eq] at hmoves
    exact .inr (hmoves.resolve_right h)
  · exact .inl rfl

theorem nextTrend_true (h : nextTrend true bands close = false) : close < bands.lower := by
  simpa [nextTrend] using h

theorem nextTrend_false (h : nextTrend false bands close = true) : bands.upper < close := by
  simpa [nextTrend] using h

end

namespace Supertrend

-- What a whole bar does to the loop and what is reported for it: nothing before
-- the average is there, and then the band on the side of the new trend.
inductive Moves (state : Supertrend) (close : Float) : Option Float → Supertrend → Prop where
  | early (range : RangeAverage) :
    Moves state close none { state with close := some close, range }
  | late (range : RangeAverage) (basic : TrendBands) {bands : TrendBands} {up : Bool}
    (hbands : nextBands basic state.bands state.close = bands)
    (hup : nextTrend state.up bands close = up) :
    Moves state close (some (if up then bands.lower else bands.upper))
      ⟨some close, range, some bands, up⟩

theorem moves_step (period : Nat) (multiplier : Float) (state : Supertrend)
    (high low close : Float) :
    Moves state close (step period multiplier state (some (high, low, close))).1
      (step period multiplier state (some (high, low, close))).2 := by
  simp only [step]
  split
  · exact .early _
  · exact .late _ _ rfl rfl

namespace Moves

variable {state middle next : Supertrend} {close close' v w : Float} {value : Option Float}

-- What is reported is the band on the side of the trend.
theorem exists_bands (h : Moves state close (some v) next) :
    ∃ bands, next.bands = some bands ∧ v = if next.up then bands.lower else bands.upper := by
  cases h with
  | late range basic _ _ => exact ⟨_, rfl, rfl⟩

theorem rises (h : Moves state close (some v) middle) (h' : Moves middle close' (some w) next)
    (hup : middle.up = true) (hup' : next.up = true) (hclose : ¬close < v) : w = v ∨ v < w := by
  cases h with
  | late range basic _ _ =>
      cases h' with
      | late range' basic' hbands' _ =>
          subst hup hup' hbands'
          exact nextBands_lower hclose

theorem falls (h : Moves state close (some v) middle) (h' : Moves middle close' (some w) next)
    (hdown : middle.up = false) (hdown' : next.up = false) (hclose : ¬v < close) :
    w = v ∨ w < v := by
  cases h with
  | late range basic _ _ =>
      cases h' with
      | late range' basic' hbands' _ =>
          subst hdown hdown' hbands'
          exact nextBands_upper hclose

theorem turns_down (h : Moves state close value next) (hup : state.up = true)
    (hdown : next.up = false) : ∃ bands, next.bands = some bands ∧ close < bands.lower := by
  cases h with
  | early range => cases hup.symm.trans hdown
  | late range basic _ htrend =>
      subst hdown
      rw [hup] at htrend
      exact ⟨_, rfl, nextTrend_true htrend⟩

theorem turns_up (h : Moves state close value next) (hdown : state.up = false)
    (hup : next.up = true) : ∃ bands, next.bands = some bands ∧ bands.upper < close := by
  cases h with
  | early range => cases hdown.symm.trans hup
  | late range basic _ htrend =>
      subst hup
      rw [hdown] at htrend
      exact ⟨_, rfl, nextTrend_false htrend⟩

end Moves

-- The state of the loop behind the first `i` bars.
def behind (period : Nat) (multiplier : Float) (high low close : Series) (i : Nat) : Supertrend :=
  stateAfter (step period multiplier) .start ((bars high low close).take i)

end Supertrend

section

variable {high low close : Series} {i : Nat}

theorem exists_bar (h : complete high low close i = true) :
    ∃ hi lo c, (bars high low close)[i]? = some (some (hi, lo, c)) ∧
      close[i]? = some (some c) := by
  simp only [complete, Bool.and_eq_true, has, Option.isSome_iff_exists,
    Option.join_eq_some_iff] at h
  obtain ⟨⟨⟨hi, hhigh⟩, lo, hlow⟩, c, hclose⟩ := h
  have hlt : i < close.length := (List.getElem?_eq_some_iff.mp hclose).1
  refine ⟨hi, lo, c, ?_, hclose⟩
  simp only [bars, List.getElem?_map, List.zip, List.getElem?_zipWith, Series.getElem?_fit hlt,
    hhigh, hlow, hclose]
  rfl

theorem getElem?_bars_of_gap (h : complete high low close i = false) (hi : i < close.length) :
    (bars high low close)[i]? = some none := by
  rw [← length_bars high low close] at hi
  rw [← has_bars, has, List.getElem?_eq_getElem hi, Option.join_some] at h
  rw [List.getElem?_eq_getElem hi, Option.not_isSome_iff_eq_none.mp (Bool.eq_false_iff.mp h)]

end

namespace Supertrend

variable {period : Nat} {multiplier : Float} {high low close : Series} {i : Nat}

theorem moves_behind (hperiod : 0 < period) (h : complete high low close i = true) :
    ∃ c value, close[i]? = some (some c) ∧
      (supertrend high low close period multiplier)[i]? = some value ∧
      Moves (behind period multiplier high low close i) c value
        (behind period multiplier high low close (i + 1)) := by
  obtain ⟨hi, lo, c, hbar, hclose⟩ := exists_bar h
  let state := behind period multiplier high low close i
  have hvalue : (supertrend high low close period multiplier)[i]? =
      some (step period multiplier state (some (hi, lo, c))).1 := by
    rw [supertrend, if_neg (by omega), Series.getElem?_scan, hbar]
    rfl
  have hnext : behind period multiplier high low close (i + 1) =
      (step period multiplier state (some (hi, lo, c))).2 :=
    Series.stateAfter_take_succ _ _ hbar
  refine ⟨c, _, hclose, hvalue, ?_⟩
  rw [hnext]
  exact moves_step ..

-- A bar with a gap leaves the loop as it is.
theorem behind_succ_of_gap (h : complete high low close i = false) :
    behind period multiplier high low close (i + 1) =
      behind period multiplier high low close i := by
  by_cases hi : i < close.length
  · exact Series.stateAfter_take_succ _ _ (getElem?_bars_of_gap h hi)
  · have hlength := length_bars high low close
    rw [behind, behind, List.take_of_length_le (by omega), List.take_of_length_le (by omega)]

theorem behind_add_of_gaps {n : Nat} (h : ∀ k < n, complete high low close (i + k) = false) :
    behind period multiplier high low close (i + n) =
      behind period multiplier high low close i := by
  induction n with
  | zero => rfl
  | succ n ih =>
      rw [← Nat.add_assoc, behind_succ_of_gap (h n (Nat.lt_succ_self n))]
      exact ih fun k hk => h k (Nat.lt_succ_of_lt hk)

end Supertrend

-- Two positions that satisfy a condition, with none between them that does.
structure Consecutive (q : Nat → Bool) (i j : Nat) : Prop where
  lt : i < j
  first : q i = true
  second : q j = true
  between : ∀ k, i < k → k < j → q k = false

namespace Supertrend

variable {period : Nat} {multiplier : Float} {high low close : Series} {i j : Nat}

-- From one whole bar to the next one nothing happens.
theorem behind_eq_of_consecutive (h : Consecutive (complete high low close) i j) :
    behind period multiplier high low close j = behind period multiplier high low close (i + 1) := by
  obtain ⟨n, rfl⟩ := Nat.exists_eq_add_of_lt h.lt
  rw [Nat.add_right_comm]
  exact behind_add_of_gaps fun k hk => h.between (i + 1 + k) (by omega) (by omega)

-- The trend turns at whole bars only.
theorem complete_of_turn (h : (behind period multiplier high low close (i + 1)).up ≠
    (behind period multiplier high low close i).up) : complete high low close i = true := by
  cases hbar : complete high low close i with
  | true => rfl
  | false => exact absurd (congrArg up (behind_succ_of_gap hbar)) h

end Supertrend

-- The bands only ratchet. What is reported is the lower band while the trend is up
-- and the upper band while it is down. As long as the trend keeps its direction
-- and the close is not beyond the band that is reported, the next bar reports the
-- same lower band or a higher one, and the same upper band or a lower one. The
-- trend turns only at a close beyond the band of that bar.
theorem supertrend_ratchets {period : Nat} (hperiod : 0 < period) (multiplier : Float)
    (high low close : Series) :
    let state := Supertrend.behind period multiplier high low close
    let values := supertrend high low close period multiplier
    (∀ i v, values[i]? = some (some v) → ∃ bands, (state (i + 1)).bands = some bands ∧
      v = if (state (i + 1)).up then bands.lower else bands.upper) ∧
    (∀ i j c v w, Consecutive (complete high low close) i j → close[i]? = some (some c) →
      values[i]? = some (some v) → values[j]? = some (some w) →
      ((state (i + 1)).up = true → (state (j + 1)).up = true → ¬c < v → w = v ∨ v < w) ∧
      ((state (i + 1)).up = false → (state (j + 1)).up = false → ¬v < c → w = v ∨ w < v)) ∧
    ∀ i,
      ((state i).up = true → (state (i + 1)).up = false →
        ∃ c bands, close[i]? = some (some c) ∧ (state (i + 1)).bands = some bands ∧
          c < bands.lower) ∧
      ((state i).up = false → (state (i + 1)).up = true →
        ∃ c bands, close[i]? = some (some c) ∧ (state (i + 1)).bands = some bands ∧
          bands.upper < c) := by
  intro state values
  refine ⟨?_, ?_, ?_⟩
  · intro i v hv
    have hbar : complete high low close i = true := by
      have hhas : has values i = true := by rw [has, hv]; rfl
      exact ((has_supertrend hperiod multiplier high low close i).mp hhas).1
    obtain ⟨_, _, -, hvalue, hmoves⟩ := Supertrend.moves_behind hperiod hbar
    cases hv.symm.trans hvalue
    exact hmoves.exists_bands
  · intro i j c v w hbars hclose hv hw
    obtain ⟨_, _, hclose', hvalue, hfirst⟩ := Supertrend.moves_behind hperiod hbars.first
    obtain ⟨_, _, -, hvalue', hsecond⟩ := Supertrend.moves_behind hperiod hbars.second
    cases hclose.symm.trans hclose'
    cases hv.symm.trans hvalue
    cases hw.symm.trans hvalue'
    rw [Supertrend.behind_eq_of_consecutive hbars] at hsecond
    exact ⟨hfirst.rises hsecond, hfirst.falls hsecond⟩
  · intro i
    constructor
    · intro hup hdown
      have hbar := Supertrend.complete_of_turn (by rw [hup, hdown]; exact Bool.false_ne_true)
      obtain ⟨c, _, hclose, -, hmoves⟩ := Supertrend.moves_behind hperiod hbar
      obtain ⟨bands, hbands, hbeyond⟩ := hmoves.turns_down hup hdown
      exact ⟨c, bands, hclose, hbands, hbeyond⟩
    · intro hdown hup
      have hbar := Supertrend.complete_of_turn (by rw [hup, hdown]; exact Bool.false_ne_true.symm)
      obtain ⟨c, _, hclose, -, hmoves⟩ := Supertrend.moves_behind hperiod hbar
      obtain ⟨bands, hbands, hbeyond⟩ := hmoves.turns_up hdown hup
      exact ⟨c, bands, hclose, hbands, hbeyond⟩

-- Rises over a gap, falls for two bars, and recovers.
theorem supertrend_ratchets_turns :
    let high : Series := [some 11.0, none, some 12.0, some 6.0, some 5.0, some 20.0]
    let low : Series := [some 9.0, some 9.0, some 10.0, some 4.0, some 3.0, some 18.0]
    let close : Series := [some 10.0, some 10.0, some 11.0, some 5.0, some 4.0, some 19.0]
    let state := Supertrend.behind 1 1.0 high low close
    Consecutive (complete high low close) 0 2 ∧ Consecutive (complete high low close) 3 4 ∧
      supertrend high low close 1 1.0 =
        [some 8.0, none, some 9.0, some 12.0, some 6.0, some 3.0] ∧
      ((9.0 : Float) = 8.0 ∨ (8.0 : Float) < 9.0) ∧ ((6.0 : Float) = 12.0 ∨ (6.0 : Float) < 12.0) ∧
      (state 3).up = true ∧ (state 4).up = false ∧
      (∃ c bands, close[3]? = some (some c) ∧ (state 4).bands = some bands ∧ c < bands.lower) ∧
      (state 5).up = false ∧ (state 6).up = true ∧
      ∃ c bands, close[5]? = some (some c) ∧ (state 6).bands = some bands ∧ bands.upper < c := by
  intro high low close state
  have hgap : Consecutive (complete high low close) 0 2 :=
    ⟨by decide, by decide, by decide, fun k hk hk' => by
      have hk'' : k = 1 := by omega
      rw [hk'']
      decide⟩
  have hnext : Consecutive (complete high low close) 3 4 :=
    ⟨by decide, by decide, by decide, fun k hk hk' => by omega⟩
  have hvalues : supertrend high low close 1 1.0 =
      [some 8.0, none, some 9.0, some 12.0, some 6.0, some 3.0] := by decide +kernel
  have htrend : (state 1).up = true ∧ (state 3).up = true ∧ (state 4).up = false ∧
      (state 5).up = false ∧ (state 6).up = true := by decide +kernel
  obtain ⟨h1, h3, h4, h5, h6⟩ := htrend
  obtain ⟨-, hratchet, hturn⟩ := supertrend_ratchets (by decide : 0 < 1) 1.0 high low close
  rw [hvalues] at hratchet
  exact ⟨hgap, hnext, hvalues,
    (hratchet 0 2 10.0 8.0 9.0 hgap rfl rfl rfl).1 h1 h3 (by decide +kernel),
    (hratchet 3 4 5.0 12.0 6.0 hnext rfl rfl rfl).2 h4 h5 (by decide +kernel),
    h3, h4, (hturn 3).1 h3 h4, h5, h6, (hturn 5).2 h5 h6⟩

end CandleScript.Indicator
