import CandleScript.Proofs.Indicator.Warmup

namespace CandleScript.Indicator

open Series (has Reached Filled)

-- The values of a list stand exactly at those of its `length` positions that
-- satisfy a condition.
def PresentAt (length : Nat) (q : Nat → Prop) (s : Series) : Prop :=
  s.length = length ∧ ∀ i < length, has s i = true ↔ q i

theorem presentAt_absent (source : Series) :
    PresentAt source.length (fun _ => False) (absent source) := by
  refine ⟨List.length_map _, fun i _ => ?_⟩
  simp [has_absent]

-- Windows of no period have nothing to be made of.
theorem presentAt_map_windows_zero {α : Type} (s : List (Option α))
    {f : Option (List α) → Option Float} (hf : ∀ w, (f w).isSome = w.isSome) :
    PresentAt s.length (fun _ => False) ((Series.windows 0 s).map f) := by
  refine ⟨by rw [List.length_map, Series.length_windows], fun i _ => ?_⟩
  simp [Series.has_map hf, Series.has_windows_zero]

theorem presentAt_bollinger_zero (source : Series) (mult : Float) :
    PresentAt source.length (fun _ => False) (bollinger source 0 mult).upper ∧
      PresentAt source.length (fun _ => False) (bollinger source 0 mult).middle ∧
      PresentAt source.length (fun _ => False) (bollinger source 0 mult).lower := by
  simp only [bollinger, List.map_map]
  refine ⟨?_, ?_, ?_⟩
  all_goals exact presentAt_map_windows_zero source fun w => by cases w <;> rfl

theorem presentAt_cci_zero (high low close : Series) :
    PresentAt close.length (fun _ => False) (cci high low close 0) := by
  refine ⟨by simp [cci, Series.length_windows, length_typicalPrices], fun i _ => ?_⟩
  simp only [cci]
  rw [Series.has_map_zip (by rintro (_ | _) (_ | _) <;> rfl), Series.has_windows_zero]
  simp

theorem presentAt_mfi_zero (high low close volume : Series) :
    PresentAt close.length (fun _ => False) (mfi high low close volume 0) := by
  let flows := moneyFlows (typicalPrices high low close) volume
  have hlength : flows.length = close.length := by rw [length_moneyFlows, length_typicalPrices]
  rw [← hlength]
  exact presentAt_map_windows_zero flows fun w => by cases w <;> rfl

section

variable {period : Nat} (hperiod : 0 < period) (source high low close volume : Series)

include hperiod

-- Whatever is made of full windows is there exactly where they are.
theorem presentAt_map_windows {α : Type} (s : List (Option α))
    {f : Option (List α) → Option Float} (hf : ∀ w, (f w).isSome = w.isSome) :
    PresentAt s.length (Filled (has s) period) ((Series.windows period s).map f) := by
  refine ⟨by rw [List.length_map, Series.length_windows], fun i _ => ?_⟩
  rw [Series.has_map hf, Series.has_windows hperiod]

theorem presentAt_sma :
    PresentAt source.length (Filled (has source) period) (sma source period) :=
  presentAt_map_windows hperiod source fun w => by cases w <;> rfl

theorem presentAt_stddev :
    PresentAt source.length (Filled (has source) period) (stddev source period) :=
  presentAt_map_windows hperiod source fun w => by cases w <;> rfl

theorem presentAt_bollinger (mult : Float) :
    PresentAt source.length (Filled (has source) period) (bollinger source period mult).upper ∧
      PresentAt source.length (Filled (has source) period) (bollinger source period mult).middle ∧
      PresentAt source.length (Filled (has source) period)
        (bollinger source period mult).lower := by
  simp only [bollinger, List.map_map]
  refine ⟨?_, ?_, ?_⟩
  all_goals exact presentAt_map_windows hperiod source fun w => by cases w <;> rfl

theorem presentAt_cci :
    PresentAt close.length (Filled (complete high low close) period)
      (cci high low close period) := by
  have htypical : has (typicalPrices high low close) = complete high low close :=
    funext (has_typicalPrices high low close)
  refine ⟨by simp [cci, Series.length_windows, length_typicalPrices], fun i _ => ?_⟩
  simp only [cci]
  rw [Series.has_map_zip (by rintro (_ | _) (_ | _) <;> rfl), Bool.and_eq_true,
    Series.has_windows hperiod, htypical, and_iff_left_iff_imp]
  exact fun h => h.2 0 hperiod

-- A money flow needs two bars, and so the flows of a window one bar more than
-- the window has.
theorem filled_moneyFlows (typical : Series) (i : Nat) :
    Filled (has (moneyFlows typical volume)) period i ↔
      Filled (has typical) (period + 1) i ∧ Filled (has volume) period i := by
  have hflow (back : Nat) : has (moneyFlows typical volume) (i - back) = true ↔
      (1 ≤ i - back ∧ has typical (i - (back + 1)) = true) ∧ has typical (i - back) = true ∧
        has volume (i - back) = true := by
    rw [has_moneyFlows, Series.has_none_cons, Nat.sub_add_eq]
    simp only [Bool.and_eq_true, decide_eq_true_eq, and_assoc]
  constructor
  · rintro ⟨hfits, hall⟩
    have hfirst := (hflow _).mp (hall (period - 1) (by omega))
    refine ⟨⟨by omega, fun back hback => ?_⟩, hfits, fun back hback => ?_⟩
    · by_cases hlast : back = period
      · have hindex : period - 1 + 1 = back := by omega
        rw [← hindex]
        exact hfirst.1.2
      · exact ((hflow back).mp (hall back (by omega))).2.1
    · exact ((hflow back).mp (hall back hback)).2.2
  · rintro ⟨⟨hfits, htypical⟩, -, hvolume⟩
    refine ⟨by omega, fun back hback => (hflow back).mpr ?_⟩
    exact ⟨⟨by omega, htypical (back + 1) (by omega)⟩, htypical back (by omega),
      hvolume back hback⟩

theorem presentAt_mfi :
    PresentAt close.length
      (fun i => Filled (complete high low close) (period + 1) i ∧ Filled (has volume) period i)
      (mfi high low close volume period) := by
  have htypical : has (typicalPrices high low close) = complete high low close :=
    funext (has_typicalPrices high low close)
  let flows := moneyFlows (typicalPrices high low close) volume
  have hlength : flows.length = close.length := by rw [length_moneyFlows, length_typicalPrices]
  have hwindows : PresentAt flows.length (Filled (has flows) period)
      (mfi high low close volume period) :=
    presentAt_map_windows hperiod flows fun w => by cases w <;> rfl
  rw [hlength] at hwindows
  refine ⟨hwindows.1, fun i hi => (hwindows.2 i hi).trans ?_⟩
  rw [filled_moneyFlows hperiod, htypical]

theorem presentAt_ema :
    PresentAt source.length (Reached (has source) period) (ema source period) :=
  ⟨length_ema source period, fun i _ => has_ema hperiod source i⟩

theorem presentAt_rsi :
    PresentAt source.length (Reached (paired source) period) (rsi source period) :=
  ⟨length_rsi source period, fun i _ => has_rsi hperiod source i⟩

theorem presentAt_supertrend (mult : Float) :
    PresentAt close.length (Reached (complete high low close) period)
      (supertrend high low close period mult) :=
  ⟨length_supertrend high low close period mult,
    fun i _ => has_supertrend hperiod mult high low close i⟩

end

theorem presentAt_macd {fast slow signal : Nat} (hfast : 0 < fast) (hslow : 0 < slow)
    (hsignal : 0 < signal) (source : Series) :
    let lines := macd source fast slow signal
    PresentAt source.length (Reached (has source) (max fast slow)) lines.line ∧
      PresentAt source.length (Reached (has source) (max fast slow + signal - 1)) lines.signal ∧
      PresentAt source.length (Reached (has source) (max fast slow + signal - 1))
        lines.histogram := by
  have hline : (macd source fast slow signal).line.length = source.length := by
    simp [macd, Series.combine, length_ema]
  have hsmoothed : (macd source fast slow signal).signal.length = source.length :=
    (length_ema _ signal).trans hline
  refine ⟨⟨hline, fun i _ => has_macd_line hfast hslow signal source i⟩,
    ⟨hsmoothed, fun i _ => has_macd_signal hfast hslow hsignal source i⟩, ?_,
    fun i _ => has_macd_histogram hfast hslow hsignal source i⟩
  change (Series.combine _ (macd source fast slow signal).line
    (macd source fast slow signal).signal).length = _
  rw [Series.combine, List.length_zipWith, hline, hsmoothed, Nat.min_self]

-- Windows over what is there from a position on are full from `period - 1`
-- positions later on.
theorem presentAt_sma_of_from {first length period : Nat} (hperiod : 0 < period) {s : Series}
    (h : PresentAt length (fun i => first ≤ i) s) :
    PresentAt length (fun i => first + (period - 1) ≤ i) (sma s period) := by
  obtain ⟨hlength, hhas⟩ := h
  obtain ⟨hsma, hfilled⟩ := presentAt_sma hperiod s
  rw [hlength] at hsma hfilled
  refine ⟨hsma, fun i hi => (hfilled i hi).trans ?_⟩
  constructor
  · rintro ⟨hfits, hall⟩
    have hfirst := (hhas _ (by omega)).mp (hall (period - 1) (by omega))
    omega
  · intro hi'
    refine ⟨by omega, fun back hback => (hhas _ (by omega)).mpr (by omega)⟩

theorem presentAt_rangePositions {k : Nat} (hk : 0 < k) {high low close : Series}
    (hall : ∀ i < close.length, complete high low close i = true) :
    PresentAt close.length (fun i => k - 1 ≤ i) (rangePositions high low close k) := by
  refine ⟨by simp [rangePositions, Series.length_windows, Series.length_fit], fun i hi => ?_⟩
  have hprices (j : Nat) (hj : j < close.length) :
      (has high j = true ∧ has low j = true) ∧ has close j = true := by
    simpa [complete] using hall j hj
  have hfilled (s : Series) (hs : ∀ j < close.length, has s j = true) :
      Filled (has (Series.fit close.length s)) k i ↔ k - 1 ≤ i := by
    constructor
    · rintro ⟨hfits, -⟩
      omega
    · intro hfits
      refine ⟨by omega, fun back _ => ?_⟩
      have hback : i - back < close.length := by omega
      rw [Series.has_fit, hs _ hback, Bool.and_true, decide_eq_true_eq]
      exact hback
  simp only [rangePositions]
  rw [Series.has_map_zip_zip (by rintro (_ | _) (_ | _) (_ | _) <;> rfl), Bool.and_eq_true,
    Bool.and_eq_true, Series.has_windows hk, Series.has_windows hk,
    hfilled high fun j hj => (hprices j hj).1.1, hfilled low fun j hj => (hprices j hj).1.2,
    (hprices i hi).2]
  simp

theorem presentAt_stochastic {k slowing d : Nat} (hk : 0 < k) (hslowing : 0 < slowing)
    (hd : 0 < d) {high low close : Series}
    (hall : ∀ i < close.length, complete high low close i = true) :
    PresentAt close.length (fun i => k + slowing - 2 ≤ i) (stochastic high low close k d slowing).k ∧
      PresentAt close.length (fun i => k + slowing + d - 3 ≤ i)
        (stochastic high low close k d slowing).d := by
  have hfirst := presentAt_sma_of_from hslowing (presentAt_rangePositions hk hall)
  have hsecond := presentAt_sma_of_from hd hfirst
  have hktotal : k - 1 + (slowing - 1) = k + slowing - 2 := by omega
  have hdtotal : k - 1 + (slowing - 1) + (d - 1) = k + slowing + d - 3 := by omega
  rw [hdtotal] at hsecond
  rw [hktotal] at hfirst
  exact ⟨hfirst, hsecond⟩

-- Where indicators have values, for inputs with gaps anywhere. The close gives
-- the length of what is made of whole bars.
theorem presentAt_indicators {period fast slow signal k slowing d : Nat} (hperiod : 0 < period)
    (hfast : 0 < fast) (hslow : 0 < slow) (hsignal : 0 < signal) (hk : 0 < k)
    (hslowing : 0 < slowing) (hd : 0 < d) (mult : Float)
    (source high low close volume : Series) :
    (∀ s ∈ [sma source period, stddev source period, (bollinger source period mult).upper,
        (bollinger source period mult).middle, (bollinger source period mult).lower],
      PresentAt source.length (Filled (has source) period) s) ∧
    PresentAt close.length (Filled (complete high low close) period)
      (cci high low close period) ∧
    PresentAt source.length (Reached (has source) period) (ema source period) ∧
    PresentAt source.length (Reached (paired source) period) (rsi source period) ∧
    PresentAt source.length (Reached (has source) (max fast slow))
      (macd source fast slow signal).line ∧
    (∀ s ∈ [(macd source fast slow signal).signal, (macd source fast slow signal).histogram],
      PresentAt source.length (Reached (has source) (max fast slow + signal - 1)) s) ∧
    PresentAt close.length
      (fun i => Filled (complete high low close) (period + 1) i ∧ Filled (has volume) period i)
      (mfi high low close volume period) ∧
    PresentAt close.length (Reached (complete high low close) period)
      (supertrend high low close period mult) ∧
    ((∀ i < close.length, complete high low close i = true) →
      PresentAt close.length (fun i => k + slowing - 2 ≤ i)
        (stochastic high low close k d slowing).k ∧
      PresentAt close.length (fun i => k + slowing + d - 3 ≤ i)
        (stochastic high low close k d slowing).d) ∧
    (∀ s ∈ [sma source 0, stddev source 0, (bollinger source 0 mult).upper,
        (bollinger source 0 mult).middle, (bollinger source 0 mult).lower, ema source 0,
        rsi source 0],
      PresentAt source.length (fun _ => False) s) ∧
    ∀ s ∈ [cci high low close 0, mfi high low close volume 0, supertrend high low close 0 mult],
      PresentAt close.length (fun _ => False) s := by
  obtain ⟨hupper, hmiddle, hlower⟩ := presentAt_bollinger hperiod source mult
  obtain ⟨hupper', hmiddle', hlower'⟩ := presentAt_bollinger_zero source mult
  obtain ⟨hline, hsignalLine, hhistogram⟩ := presentAt_macd hfast hslow hsignal source
  have habsent := presentAt_absent source
  simp only [List.mem_cons, List.not_mem_nil, or_false, forall_eq_or_imp, forall_eq]
  refine ⟨⟨presentAt_sma hperiod source, presentAt_stddev hperiod source, hupper, hmiddle, hlower⟩,
    presentAt_cci hperiod high low close, presentAt_ema hperiod source,
    presentAt_rsi hperiod source, hline, ⟨hsignalLine, hhistogram⟩,
    presentAt_mfi hperiod high low close volume, presentAt_supertrend hperiod high low close mult,
    presentAt_stochastic hk hslowing hd, ⟨?_, ?_, hupper', hmiddle', hlower', habsent, habsent⟩,
    presentAt_cci_zero high low close, presentAt_mfi_zero high low close volume,
    presentAt_absent close⟩
  · exact presentAt_map_windows_zero source fun w => by cases w <;> rfl
  · exact presentAt_map_windows_zero source fun w => by cases w <;> rfl

-- A gap behind the first value holds up windows and changes, but not a count.
theorem presentAt_indicators_gap :
    let source : Series := [some 1.0, none, some 3.0, some 2.0]
    let close : Series := [some 1.0, some 2.0, some 3.0]
    has (sma source 2) 2 = false ∧ has (sma source 2) 3 = true ∧
      has (ema source 2) 2 = true ∧ has (rsi source 2) 3 = false ∧
      has (macd source 1 2 2).signal 2 = false ∧ has (macd source 1 2 2).signal 3 = true ∧
      has (stochastic close close close 2 2 1).d 1 = false ∧
      has (stochastic close close close 2 2 1).d 2 = true := by
  intro source close
  obtain ⟨hrolling, -, hema, hrsi, -, hsignals, -, -, hstochastic, -⟩ :=
    @presentAt_indicators 2 1 2 2 2 1 2 (by decide) (by decide) (by decide) (by decide) (by decide)
      (by decide) (by decide) 2.0 source close close close close
  obtain ⟨-, hsma⟩ := hrolling _ List.mem_cons_self
  obtain ⟨-, hsignal⟩ := hsignals _ List.mem_cons_self
  obtain ⟨-, -, hd⟩ := hstochastic (by decide)
  have hgap : ¬Filled (has source) 2 2 := fun h => absurd (h.2 1 (by decide)) (by decide)
  have hpairs : ¬Reached (paired source) 2 3 := fun h => absurd h.2 (by decide)
  have hearly : ¬Reached (has source) 3 2 := fun h => absurd h.2 (by decide)
  refine ⟨?_, (hsma 3 (by decide)).mpr ⟨by decide, by decide⟩,
    (hema.2 2 (by decide)).mpr ⟨by decide, by decide⟩, ?_, ?_,
    (hsignal 3 (by decide)).mpr ⟨by decide, by decide⟩, ?_,
    (hd 2 (by decide)).mpr (by decide)⟩
  · exact Bool.eq_false_iff.mpr fun h => hgap ((hsma 2 (by decide)).mp h)
  · exact Bool.eq_false_iff.mpr fun h => hpairs ((hrsi.2 3 (by decide)).mp h)
  · exact Bool.eq_false_iff.mpr fun h => hearly ((hsignal 2 (by decide)).mp h)
  · exact Bool.eq_false_iff.mpr fun h => absurd ((hd 1 (by decide)).mp h) (by decide)

end CandleScript.Indicator
