import CandleScript.Proofs.Indicator.Positions

namespace CandleScript

namespace Series

variable {α β : Type}

-- Without its `m` oldest positions a list is as it was, from the first position
-- on that has `look` positions up to itself.
def Remembers (look m : Nat) (short full : List α) : Prop :=
  ∀ i, look ≤ i + 1 → short[i]? = full[i + m]?

theorem remembers_drop (m : Nat) (s : List α) : Remembers 1 m (s.drop m) s := by
  intro i _
  rw [List.getElem?_drop, Nat.add_comm]

namespace Remembers

variable {look m : Nat} {s t : List α} {u v : List β}

theorem mono {further : Nat} (h : Remembers look m s t) (hle : look ≤ further) :
    Remembers further m s t :=
  fun i hi => h i (Nat.le_trans hle hi)

theorem map (f : α → β) (h : Remembers look m s t) : Remembers look m (s.map f) (t.map f) := by
  intro i hi
  rw [List.getElem?_map, List.getElem?_map, h i hi]

theorem zip (hs : Remembers look m s t) (hu : Remembers look m u v) :
    Remembers look m (s.zip u) (t.zip v) := by
  intro i hi
  simp only [List.zip, List.getElem?_zipWith, hs i hi, hu i hi]

-- To see the position before takes a longer memory.
theorem cons (h : Remembers look m s t) (hlook : 0 < look) (x : α) :
    Remembers (look + 1) m (x :: s) (x :: t) := by
  intro i hi
  cases i with
  | zero => omega
  | succ i =>
      have hindex : i + 1 + m = i + m + 1 := by omega
      rw [hindex, List.getElem?_cons_succ, List.getElem?_cons_succ, h i (by omega)]

theorem fit {s t : Series} (h : Remembers look m s t) {short full : Nat}
    (hshort : short = full - m) : Remembers look m (fit short s) (fit full t) := by
  intro i hi
  by_cases hin : i < short
  · rw [getElem?_fit hin, getElem?_fit (by omega), h i hi]
  · rw [List.getElem?_eq_none (by rw [length_fit]; omega),
      List.getElem?_eq_none (by rw [length_fit]; omega)]

-- A window remembers what its first value does, and its other values.
theorem windows {s t : List (Option α)} (h : Remembers look m s t) (hlook : 0 < look)
    {period : Nat} (hperiod : 0 < period) :
    Remembers (look + period - 1) m (windows period s) (windows period t) := by
  intro i hi
  have hslice : (s.take (i + 1)).drop (i + 1 - period) =
      (t.take (i + m + 1)).drop (i + m + 1 - period) := by
    apply List.ext_getElem?
    intro k
    rw [List.getElem?_drop, List.getElem?_drop]
    by_cases hk : k < period
    · have hindex : i + 1 - period + k + m = i + m + 1 - period + k := by omega
      rw [List.getElem?_take_of_lt (by omega), List.getElem?_take_of_lt (by omega),
        h _ (by omega), hindex]
    · rw [List.getElem?_eq_none (by rw [List.length_take]; omega),
        List.getElem?_eq_none (by rw [List.length_take]; omega)]
  have hwindow : window period i s = window period (i + m) t := by
    rw [window, window, if_pos ⟨by omega, by omega⟩, if_pos ⟨by omega, by omega⟩, hslice]
  rw [getElem?_windows, getElem?_windows, h i (by omega), hwindow]

end Remembers

end Series

namespace Indicator

open Series (Remembers remembers_drop)

variable {m period : Nat}

theorem remembers_sma {look : Nat} {s t : Series} (h : Remembers look m s t) (hlook : 0 < look)
    (hperiod : 0 < period) :
    Remembers (look + period - 1) m (sma s period) (sma t period) :=
  (h.windows hlook hperiod).map _

-- The windows of the values themselves remember just their own length.
theorem remembers_windows (m : Nat) (hperiod : 0 < period) (source : Series) :
    Remembers period m (Series.windows period (source.drop m)) (Series.windows period source) := by
  have hwindows := (remembers_drop m source).windows (by omega) hperiod
  rwa [Nat.add_sub_cancel_left] at hwindows

theorem remembers_bollinger (m : Nat) (hperiod : 0 < period) (mult : Float) (source : Series) :
    let short := bollinger (source.drop m) period mult
    let full := bollinger source period mult
    Remembers period m short.upper full.upper ∧ Remembers period m short.middle full.middle ∧
      Remembers period m short.lower full.lower := by
  have hstats := (remembers_windows m hperiod source).map fun w => w.map meanDeviation
  exact ⟨hstats.map _, hstats.map _, hstats.map _⟩

section

variable (m : Nat) (high low close volume : Series)

-- The length that a series is fitted to is shortened with it.
theorem remembers_fit (s : Series) :
    Remembers 1 m (Series.fit (close.drop m).length (s.drop m)) (Series.fit close.length s) :=
  (remembers_drop m s).fit List.length_drop

theorem remembers_typicalPrices :
    Remembers 1 m (typicalPrices (high.drop m) (low.drop m) (close.drop m))
      (typicalPrices high low close) := by
  have hbars := ((remembers_fit m close high).zip ((remembers_fit m close low).zip
    (remembers_drop m close)))
  exact (hbars.map _).map _

theorem remembers_cci (hperiod : 0 < period) :
    Remembers period m (cci (high.drop m) (low.drop m) (close.drop m) period)
      (cci high low close period) := by
  have htypical := remembers_typicalPrices m high low close
  have hwindows := htypical.windows (by omega) hperiod
  rw [Nat.add_sub_cancel_left] at hwindows
  exact (hwindows.zip (htypical.mono hperiod)).map _

-- A flow takes the price before it, and a window of flows one position more than
-- its length.
theorem remembers_mfi (hperiod : 0 < period) :
    Remembers (period + 1) m
      (mfi (high.drop m) (low.drop m) (close.drop m) (volume.drop m) period)
      (mfi high low close volume period) := by
  let short := typicalPrices (high.drop m) (low.drop m) (close.drop m)
  let full := typicalPrices high low close
  have htypical : Remembers 1 m short full := remembers_typicalPrices m high low close
  have hlength : short.length = full.length - m := by
    rw [length_typicalPrices, length_typicalPrices, List.length_drop]
  have hvolume := (remembers_drop m volume).fit hlength
  have hbefore := htypical.cons (by omega) none
  have hnow := (htypical.zip hvolume).mono (Nat.le_succ 1)
  have hflows : Remembers 2 m (moneyFlows short (volume.drop m)) (moneyFlows full volume) :=
    (hbefore.zip hnow).map _
  exact ((hflows.windows (by omega) hperiod).mono (by omega)).map _

theorem remembers_stochastic {k slowing d : Nat} (hk : 0 < k) (hslowing : 0 < slowing)
    (hd : 0 < d) :
    let short := stochastic (high.drop m) (low.drop m) (close.drop m) k d slowing
    let full := stochastic high low close k d slowing
    Remembers (k + slowing - 1) m short.k full.k ∧
      Remembers (k + slowing + d - 2) m short.d full.d := by
  intro short full
  have hrange (s : Series) : Remembers k m
      (Series.windows k (Series.fit (close.drop m).length (s.drop m)))
      (Series.windows k (Series.fit close.length s)) := by
    have hwindows := (remembers_fit m close s).windows (by omega) hk
    rwa [Nat.add_sub_cancel_left] at hwindows
  have hraw : Remembers k m (rangePositions (high.drop m) (low.drop m) (close.drop m) k)
      (rangePositions high low close k) :=
    ((hrange high).zip ((hrange low).zip ((remembers_drop m close).mono hk))).map _
  have hsmoothed : Remembers (k + slowing - 1) m short.k full.k := remembers_sma hraw hk hslowing
  have htwice := remembers_sma hsmoothed (by omega) hd
  exact ⟨hsmoothed, htwice.mono (by omega)⟩

theorem remembers_crossing (turned : Float → Float → Float → Float → Bool) (a b : Series) :
    Remembers 2 m (crossing turned (a.drop m) (b.drop m)) (crossing turned a b) := by
  have hlength : max (a.drop m).length (b.drop m).length = max a.length b.length - m := by
    rw [List.length_drop, List.length_drop]
    omega
  have hfit (s : Series) := (remembers_drop m s).fit hlength
  have hbefore := ((hfit a).cons (by omega) none).zip ((hfit b).cons (by omega) none)
  have hnow := ((hfit a).zip (hfit b)).mono (Nat.le_succ 1)
  exact (hbefore.zip hnow).map _

end

-- Rolling indicators remember their windows: without the `m` oldest positions of
-- its inputs an indicator gives, from the first position on that has the
-- look-back up to itself, what it gives with them.
theorem remembers_indicators {k slowing d : Nat} (hperiod : 0 < period) (hk : 0 < k)
    (hslowing : 0 < slowing) (hd : 0 < d) (mult : Float) (m : Nat)
    (source high low close volume a b : Series) :
    Remembers period m (sma (source.drop m) period) (sma source period) ∧
    Remembers period m (stddev (source.drop m) period) (stddev source period) ∧
    (let short := bollinger (source.drop m) period mult
     let full := bollinger source period mult
     Remembers period m short.upper full.upper ∧ Remembers period m short.middle full.middle ∧
       Remembers period m short.lower full.lower) ∧
    Remembers period m (cci (high.drop m) (low.drop m) (close.drop m) period)
      (cci high low close period) ∧
    Remembers (period + 1) m
      (mfi (high.drop m) (low.drop m) (close.drop m) (volume.drop m) period)
      (mfi high low close volume period) ∧
    (let short := stochastic (high.drop m) (low.drop m) (close.drop m) k d slowing
     let full := stochastic high low close k d slowing
     Remembers (k + slowing - 1) m short.k full.k ∧
       Remembers (k + slowing + d - 2) m short.d full.d) ∧
    Remembers 2 m (crossover (a.drop m) (b.drop m)) (crossover a b) ∧
    Remembers 2 m (crossunder (a.drop m) (b.drop m)) (crossunder a b) := by
  have hwindows := remembers_windows m hperiod source
  exact ⟨hwindows.map _, hwindows.map _, remembers_bollinger m hperiod mult source,
    remembers_cci m high low close hperiod, remembers_mfi m high low close volume hperiod,
    remembers_stochastic m high low close hk hslowing hd, remembers_crossing m _ a b,
    remembers_crossing m _ a b⟩

-- Two of five positions are dropped, and the gap in front with them.
theorem remembers_indicators_recent :
    let close : Series := [some 4.0, none, some 1.0, some 2.0, some 3.0]
    let recent : Series := [some 1.0, some 2.0, some 3.0]
    (sma recent 2)[1]? = (sma close 2)[3]? ∧ (mfi recent recent recent recent 1)[1]? =
      (mfi close close close close 1)[3]? ∧
      (stochastic recent recent recent 2 1 2).k[2]? =
        (stochastic close close close 2 1 2).k[4]? := by
  intro close recent
  obtain ⟨hsma, -⟩ := @remembers_indicators 2 1 1 1 (by decide) (by decide) (by decide)
    (by decide) 2.0 2 close close close close close close close
  obtain ⟨-, -, -, -, hmfi, ⟨hk, -⟩, -⟩ := @remembers_indicators 1 2 2 1 (by decide) (by decide)
    (by decide) (by decide) 2.0 2 close close close close close close close
  exact ⟨hsma 1 (by decide), hmfi 1 (by decide), hk 2 (by decide)⟩

end Indicator

end CandleScript
