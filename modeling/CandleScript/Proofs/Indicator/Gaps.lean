import CandleScript.Proofs.Indicator.Warmup

namespace CandleScript

namespace Series

variable {α β σ : Type}

-- What is left of a list without the positions that fail a condition.
def keep : (Nat → Bool) → List α → List α
  | _, [] => []
  | q, x :: rest =>
    if q 0 = true then x :: keep (fun i => q (i + 1)) rest else keep (fun i => q (i + 1)) rest

theorem keep_map (q : Nat → Bool) (f : α → β) (s : List α) :
    keep q (s.map f) = (keep q s).map f := by
  induction s generalizing q with
  | nil => rfl
  | cons x rest ih => by_cases hq : q 0 = true <;> simp [keep, hq, ih]

theorem keep_zip (q : Nat → Bool) (s : List α) (t : List β) :
    keep q (s.zip t) = (keep q s).zip (keep q t) := by
  induction s generalizing q t with
  | nil => rfl
  | cons x rest ih =>
      cases t with
      | nil => simp [keep]
      | cons y others => by_cases hq : q 0 = true <;> simp [keep, hq, ih]

theorem length_keep_eq (q : Nat → Bool) {s : List α} {t : List β} (h : s.length = t.length) :
    (keep q s).length = (keep q t).length := by
  induction s generalizing q t with
  | nil => rw [List.eq_nil_of_length_eq_zero h.symm, keep, keep, List.length_nil, List.length_nil]
  | cons x rest ih =>
      cases t with
      | nil => cases h
      | cons y others =>
          have hrest := ih (fun i => q (i + 1)) (Nat.succ_inj.mp h)
          by_cases hq : q 0 = true <;> simp [keep, hq, hrest]

theorem keep_combine (q : Nat → Bool) (f : Float → Float → Float) (s t : Series) :
    keep q (combine f s t) = combine f (keep q s) (keep q t) := by
  rw [combine, combine, ← List.map_uncurry_zip_eq_zipWith, ← List.map_uncurry_zip_eq_zipWith,
    keep_map, keep_zip]

theorem fit_of_length {s : Series} {length : Nat} (h : s.length = length) : fit length s = s := by
  rw [← h, fit_length]

-- Series of one length need not be fitted, before and after.
theorem fit_keep (q : Nat → Bool) {s : Series} {t : List α} (h : s.length = t.length) :
    fit (keep q t).length (keep q s) = keep q (fit t.length s) := by
  rw [fit_of_length (length_keep_eq q h), fit_of_length h]

-- The short series is the whole one without the positions that fail a condition,
-- and there the whole one has no values.
structure Skips (length : Nat) (q : Nat → Bool) (whole short : Series) : Prop where
  length_eq : whole.length = length
  absent : ∀ i < length, q i = false → whole[i]? = some none
  kept : keep q whole = short

theorem Skips.has_eq_false {length : Nat} {q : Nat → Bool} {whole short : Series}
    (h : Skips length q whole short) {i : Nat} (hq : q i = false) : has whole i = false := by
  by_cases hi : i < length
  · rw [has, h.absent i hi hq]
    rfl
  · exact has_of_le (by rw [h.length_eq]; omega)

-- Where the step leaves its state as it is and gives nothing, it does not matter
-- whether it is taken.
def Idle (step : σ → α → Option β × σ) (q : Nat → Bool) (s : List α) : Prop :=
  ∀ i x, s[i]? = some x → q i = false → ∀ state, step state x = (none, state)

variable {step : σ → α → Option β × σ} {q : Nat → Bool} {s : List α}

theorem Idle.tail {x : α} (h : Idle step q (x :: s)) : Idle step (fun i => q (i + 1)) s :=
  fun i y hy hq => h (i + 1) y hy hq

-- Induction on the list, with the state carried past the positions left out.
theorem Idle.scan_keep (h : Idle step q s) (state : σ) :
    scan step state (keep q s) = keep q (scan step state s) := by
  induction s generalizing q state with
  | nil => rfl
  | cons x rest ih =>
      by_cases hq : q 0 = true
      · simp only [keep, hq, if_true, scan, ih h.tail]
      · have hidle := h 0 x rfl (Bool.eq_false_iff.mpr hq) state
        simp only [keep, if_neg hq, scan, hidle, ih h.tail]

theorem Idle.getElem?_scan (h : Idle step q s) (state : σ) {i : Nat} (hi : i < s.length)
    (hq : q i = false) : (scan step state s)[i]? = some none := by
  induction s generalizing q state i with
  | nil => cases hi
  | cons x rest ih =>
      cases i with
      | zero => simp [scan, h 0 x rfl hq state]
      | succ i =>
          simp only [scan, List.getElem?_cons_succ]
          exact ih h.tail _ (Nat.lt_of_succ_lt_succ hi) hq

theorem Idle.skips {step : σ → α → Option Float × σ} (h : Idle step q s) (state : σ) :
    Skips s.length q (scan step state s) (scan step state (keep q s)) where
  length_eq := length_scan ..
  absent _ hi hq := h.getElem?_scan state hi hq
  kept := (h.scan_keep state).symm

theorem WarmsUp.idle {step : σ → Option α → Option β × σ} {lacks : σ → Nat → Prop}
    (h : WarmsUp step lacks) {s : List (Option α)} (hq : ∀ i, q i = false → has s i = false) :
    Idle step q s := by
  rintro i (_ | x) hx hi state
  · exact h.gap state
  · have hgap := hq i hi
    rw [has, hx] at hgap
    cases hgap

end Series

namespace Indicator

open Series (has keep Skips Idle)

theorem skips_absent (q : Nat → Bool) (source : Series) :
    Skips source.length q (absent source) (absent (keep q source)) where
  length_eq := List.length_map _
  absent i hi _ := by rw [absent, List.getElem?_map, List.getElem?_eq_getElem hi]; rfl
  kept := Series.keep_map ..

theorem skips_ema (period : Nat) {q : Nat → Bool} {source : Series}
    (hq : ∀ i, q i = false → has source i = false) :
    Skips source.length q (ema source period) (ema (keep q source) period) := by
  unfold ema
  split
  · exact skips_absent q source
  · exact ((Ema.warmsUp_step period _).idle hq).skips _

theorem skips_combine {length : Nat} {q : Nat → Bool} {a a' b b' : Series}
    (f : Float → Float → Float) (ha : Skips length q a a') (hb : Skips length q b b') :
    Skips length q (Series.combine f a b) (Series.combine f a' b') where
  length_eq := by rw [Series.combine, List.length_zipWith, ha.length_eq, hb.length_eq, Nat.min_self]
  absent i hi hq := by
    rw [Series.combine, List.getElem?_zipWith, ha.absent i hi hq, hb.absent i hi hq]
  kept := by rw [Series.keep_combine, ha.kept, hb.kept]

-- The average of the line skips what the line skips.
theorem skips_macd (fast slow signal : Nat) (source : Series) :
    let q := has source
    let whole := macd source fast slow signal
    let short := macd (keep q source) fast slow signal
    Skips source.length q whole.line short.line ∧
      Skips source.length q whole.signal short.signal ∧
      Skips source.length q whole.histogram short.histogram := by
  intro q whole short
  have hline : Skips source.length q whole.line short.line :=
    skips_combine _ (skips_ema fast fun _ h => h) (skips_ema slow fun _ h => h)
  have hsignal : Skips source.length q whole.signal short.signal := by
    have haverage := skips_ema signal fun _ h => hline.has_eq_false h
    rw [hline.kept, hline.length_eq] at haverage
    exact haverage
  exact ⟨hline, hsignal, skips_combine _ hline hsignal⟩

section

variable {high low close volume : Series}

theorem keep_bars (q : Nat → Bool) (hhigh : high.length = close.length)
    (hlow : low.length = close.length) :
    keep q (bars high low close) = bars (keep q high) (keep q low) (keep q close) := by
  simp only [bars, Series.fit_keep q hhigh, Series.fit_keep q hlow, Series.keep_map,
    Series.keep_zip]

theorem skips_supertrend (period : Nat) (multiplier : Float) (hhigh : high.length = close.length)
    (hlow : low.length = close.length) :
    let q := complete high low close
    Skips close.length q (supertrend high low close period multiplier)
      (supertrend (keep q high) (keep q low) (keep q close) period multiplier) := by
  intro q
  unfold supertrend
  split
  · exact skips_absent q close
  · have hgaps (i : Nat) (hi : q i = false) : has (bars high low close) i = false := by
      rw [has_bars]
      exact hi
    have hskips := ((Supertrend.warmsUp_step period multiplier).idle hgaps).skips .start
    rw [length_bars, keep_bars q hhigh hlow] at hskips
    exact hskips

-- Where one of two series has no value, a pair of them lacks one.
theorem idle_zip {σ : Type} {step : σ → Option Float × Option Float → Option Float × σ}
    (hleft : ∀ state y, step state (none, y) = (none, state))
    (hright : ∀ state x, step state (x, none) = (none, state)) (s t : Series) :
    Idle step (fun i => has s i && has t i) (s.zip t) := by
  rintro i ⟨x, y⟩ hpair hq state
  obtain ⟨hx, hy⟩ := List.getElem?_zip_eq_some.mp hpair
  simp only [has, hx, hy, Option.join_some] at hq
  cases x with
  | none => exact hleft state y
  | some x =>
      cases y with
      | none => exact hright state _
      | some y => cases hq

-- Whether a position has a close and a volume.
def traded (close volume : Series) (i : Nat) : Bool := has close i && has volume i

theorem skips_obv (hvolume : volume.length = close.length) :
    let q := traded close volume
    Skips close.length q (obv close volume) (obv (keep q close) (keep q volume)) := by
  intro q
  have hidle : Idle Obv.step q (close.zip volume) :=
    idle_zip (fun _ _ => rfl) (fun _ x => by cases x <;> rfl) close volume
  have hskips := hidle.skips ⟨0.0, none⟩
  rw [List.length_zip, hvolume, Nat.min_self, Series.keep_zip] at hskips
  rw [obv, obv, Series.fit_keep q hvolume, Series.fit_of_length hvolume]
  exact hskips

-- Whether a position has a whole bar and a volume.
def weighed (high low close volume : Series) (i : Nat) : Bool :=
  complete high low close i && has volume i

theorem skips_vwap (hhigh : high.length = close.length) (hlow : low.length = close.length)
    (hvolume : volume.length = close.length) :
    let q := weighed high low close volume
    Skips close.length q (vwap high low close volume)
      (vwap (keep q high) (keep q low) (keep q close) (keep q volume)) := by
  intro q
  have htypical : volume.length = (typicalPrices high low close).length := by
    rw [hvolume, length_typicalPrices]
  have hq : q = fun i => has (typicalPrices high low close) i && has volume i :=
    funext fun i => by rw [has_typicalPrices]; rfl
  have hidle : Idle vwapStep q ((typicalPrices high low close).zip volume) := by
    rw [hq]
    exact idle_zip (fun _ _ => rfl) (fun _ x => by cases x <;> rfl) _ _
  have hshort : typicalPrices (keep q high) (keep q low) (keep q close) =
      keep q (typicalPrices high low close) := by
    rw [typicalPrices, typicalPrices, ← keep_bars q hhigh hlow, Series.keep_map]
  have hskips := hidle.skips (0.0, 0.0)
  rw [List.length_zip, htypical, Nat.min_self, length_typicalPrices, Series.keep_zip] at hskips
  simp only [vwap, hshort]
  rw [Series.fit_keep q htypical, Series.fit_of_length htypical]
  exact hskips

-- Running indicators have no values where one of their inputs has a gap, and
-- give what is left of their inputs what they give the inputs with gaps.
theorem skips_indicators (hhigh : high.length = close.length) (hlow : low.length = close.length)
    (hvolume : volume.length = close.length) (period fast slow signal : Nat) (multiplier : Float)
    (source : Series) :
    (let q := has source
     Skips source.length q (ema source period) (ema (keep q source) period)) ∧
    (let q := has source
     let whole := macd source fast slow signal
     let short := macd (keep q source) fast slow signal
     Skips source.length q whole.line short.line ∧
       Skips source.length q whole.signal short.signal ∧
       Skips source.length q whole.histogram short.histogram) ∧
    (let q := traded close volume
     Skips close.length q (obv close volume) (obv (keep q close) (keep q volume))) ∧
    (let q := weighed high low close volume
     Skips close.length q (vwap high low close volume)
       (vwap (keep q high) (keep q low) (keep q close) (keep q volume))) ∧
    (let q := complete high low close
     Skips close.length q (supertrend high low close period multiplier)
       (supertrend (keep q high) (keep q low) (keep q close) period multiplier)) :=
  ⟨skips_ema period fun _ h => h, skips_macd fast slow signal source, skips_obv hvolume,
    skips_vwap hhigh hlow hvolume, skips_supertrend period multiplier hhigh hlow⟩

-- One gap in each of the two series that a volume balance reads.
theorem skips_indicators_traded :
    let close : Series := [some 1.0, none, some 3.0, some 2.0]
    let volume : Series := [some 5.0, some 6.0, some 7.0, none]
    (obv close volume)[1]? = some none ∧ (obv close volume)[3]? = some none ∧
      keep (traded close volume) (obv close volume) =
        obv [some 1.0, some 3.0] [some 5.0, some 7.0] ∧
      keep (has close) (macd close 1 2 2).histogram =
        (macd [some 1.0, some 3.0, some 2.0] 1 2 2).histogram := by
  intro close volume
  obtain ⟨-, ⟨-, -, hhistogram⟩, hobv, -⟩ :=
    @skips_indicators close close close volume rfl rfl (by decide) 2 1 2 2 3.0 close
  have hclose : keep (has close) close = [some 1.0, some 3.0, some 2.0] := rfl
  rw [hclose] at hhistogram
  exact ⟨hobv.absent 1 (by decide) (by decide), hobv.absent 3 (by decide) (by decide),
    hobv.kept, hhistogram.kept⟩

end

end Indicator

end CandleScript
