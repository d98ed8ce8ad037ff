import CandleScript.Proofs.Indicator.Positions

namespace CandleScript

namespace Series

variable {α : Type}

theorem length_present {s : List (Option α)} {xs : List α} (h : present s = some xs) :
    xs.length = s.length := by
  induction s generalizing xs with
  | nil =>
      cases h
      rfl
  | cons x rest ih =>
      cases x with
      | none => cases h
      | some x =>
          obtain ⟨ys, hys, rfl⟩ := Option.map_eq_some_iff.mp h
          rw [List.length_cons, List.length_cons, ih hys]

-- A window has as many values as its period says.
theorem length_of_windows {period i : Nat} {s : List (Option α)} {xs : List α}
    (h : (windows period s)[i]? = some (some xs)) : xs.length = period := by
  rw [getElem?_windows] at h
  obtain ⟨x, hx, hwindow⟩ := Option.map_eq_some_iff.mp h
  have hi : i < s.length := (List.getElem?_eq_some_iff.mp hx).1
  unfold window at hwindow
  split at hwindow
  · rename_i hfits
    rw [length_present hwindow, List.length_drop, List.length_take]
    omega
  · cases hwindow

end Series

namespace Indicator

-- A window's mean is divided by the number of its values, and the moving average
-- by the period: both are the same.
theorem meanDeviation_of_windows {period i : Nat} {source : Series} {xs : List Float}
    (h : (Series.windows period source)[i]? = some (some xs)) :
    (meanDeviation xs).1 = Number.sum xs / Number.ofCount period := by
  rw [meanDeviation, Series.length_of_windows h]

theorem middle_bollinger (source : Series) (period : Nat) (mult : Float) :
    (bollinger source period mult).middle = sma source period := by
  apply List.ext_getElem?
  intro i
  simp only [bollinger, sma, List.getElem?_map]
  cases h : (Series.windows period source)[i]? with
  | none => rfl
  | some w =>
      cases w with
      | none => rfl
      | some xs => simp only [Option.map_some, meanDeviation_of_windows h]

-- Both bands and the two series that they are made of, at one position.
inductive BandsAt (mult : Float) : (mean deviation upper lower : Option Float) → Prop where
  | absent : BandsAt mult none none none none
  | present (m d : Float) :
    BandsAt mult (some m) (some d) (some (m + mult * d)) (some (m - mult * d))

theorem bandsAt_bollinger (source : Series) (period : Nat) (mult : Float) (i : Nat) :
    let bands := bollinger source period mult
    BandsAt mult (sma source period)[i]?.join (stddev source period)[i]?.join
      bands.upper[i]?.join bands.lower[i]?.join := by
  simp only [bollinger, sma, stddev, List.getElem?_map]
  cases h : (Series.windows period source)[i]? with
  | none => exact .absent
  | some w =>
      cases w with
      | none => exact .absent
      | some xs =>
          simp only [Option.map_some, Option.join_some, meanDeviation_of_windows h]
          exact .present _ _

-- The bands agree with the moving average and the deviation that are computed on
-- their own: the band in the middle is the average, and at each position the
-- outer ones stand the deviations above and below it where both are there, and
-- are absent where both are not.
theorem bollinger_agrees (source : Series) (period : Nat) (mult : Float) :
    let bands := bollinger source period mult
    let mean := sma source period
    let deviation := stddev source period
    bands.middle = mean ∧
      (∀ s ∈ [mean, deviation, bands.upper, bands.lower], s.length = source.length) ∧
      ∀ i : Nat, BandsAt mult mean[i]?.join deviation[i]?.join bands.upper[i]?.join
        bands.lower[i]?.join := by
  intro bands mean deviation
  refine ⟨middle_bollinger source period mult, ?_, bandsAt_bollinger source period mult⟩
  simp [mean, deviation, bands, sma, stddev, bollinger, Series.length_windows]

-- Of five windows the first one starts too early, and two hold the gap.
theorem bollinger_agrees_gap :
    let source : Series := [some 1.0, some 3.0, none, some 4.0, some 6.0]
    let bands := bollinger source 2 2.0
    bands.middle = [none, some 2.0, none, none, some 5.0] ∧
      bands.upper = [none, some 4.0, none, none, some 7.0] ∧ bands.lower.length = 5 ∧
      BandsAt 2.0 (some 2.0) (some 1.0) (some 4.0) (some 0.0) := by
  intro source bands
  obtain ⟨hmiddle, hlength, hbands⟩ := bollinger_agrees source 2 2.0
  have hmean : sma source 2 = [none, some 2.0, none, none, some 5.0] := by decide +kernel
  have hdeviation : stddev source 2 = [none, some 1.0, none, none, some 1.0] := by decide +kernel
  have hupper : bands.upper = [none, some 4.0, none, none, some 7.0] := by decide +kernel
  have hlower : bands.lower = [none, some 0.0, none, none, some 3.0] := by decide +kernel
  have hsecond := hbands 1
  rw [hmean, hdeviation, hupper, hlower] at hsecond
  exact ⟨hmiddle.trans hmean, hupper, hlength _ (by simp [bands]), hsecond⟩

end Indicator

end CandleScript
