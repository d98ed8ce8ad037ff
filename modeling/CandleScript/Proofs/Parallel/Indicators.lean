import CandleScript.Indicator.Trend
import CandleScript.Indicator.Volume
import CandleScript.Proofs.Parallel.Pairing

namespace CandleScript.Pairing

open Indicator

variable (p : Pairing) {source source' high high' low low' close close' volume volume' : Series}

theorem absent (hs : p.lists source source') : p.lists (absent source) (absent source') :=
  p.map _ hs

theorem sma (period : Nat) (hs : p.lists source source') :
    p.lists (sma source period) (sma source' period) :=
  p.map _ (p.windows period hs)

theorem bollinger (period : Nat) (mult : Float) (hs : p.lists source source') :
    p.lists (bollinger source period mult).upper (bollinger source' period mult).upper ∧
      p.lists (bollinger source period mult).lower (bollinger source' period mult).lower := by
  have hstats := p.map (fun w => w.map meanDeviation) (p.windows period hs)
  exact ⟨p.map _ hstats, p.map _ hstats⟩

theorem ema (period : Nat) (hs : p.lists source source') :
    p.lists (ema source period) (ema source' period) := by
  unfold Indicator.ema
  split
  · exact p.absent hs
  · exact p.scan _ _ hs

theorem macd (fast slow signal : Nat) (hs : p.lists source source') :
    p.lists (macd source fast slow signal).line (macd source' fast slow signal).line ∧
      p.lists (macd source fast slow signal).signal (macd source' fast slow signal).signal ∧
      p.lists (macd source fast slow signal).histogram
        (macd source' fast slow signal).histogram := by
  have hline := p.combine (· - ·) (p.ema fast hs) (p.ema slow hs)
  have hsignal := p.ema signal hline
  exact ⟨hline, hsignal, p.combine _ hline hsignal⟩

theorem bars (hh : p.lists high high') (hl : p.lists low low') (hc : p.lists close close') :
    p.lists (bars high low close) (bars high' low' close') :=
  p.map _ (p.zip (p.fitTo hh hc) (p.zip (p.fitTo hl hc) hc))

theorem typicalPrices (hh : p.lists high high') (hl : p.lists low low')
    (hc : p.lists close close') :
    p.lists (typicalPrices high low close) (typicalPrices high' low' close') :=
  p.map _ (p.bars hh hl hc)

theorem rsi (period : Nat) (hs : p.lists source source') :
    p.lists (rsi source period) (rsi source' period) := by
  unfold Indicator.rsi
  split
  · exact p.absent hs
  · exact p.scan _ _ hs

theorem rangePositions (period : Nat) (hh : p.lists high high') (hl : p.lists low low')
    (hc : p.lists close close') :
    p.lists (rangePositions high low close period) (rangePositions high' low' close' period) :=
  p.map _ (p.zip (p.windows period (p.fitTo hh hc))
    (p.zip (p.windows period (p.fitTo hl hc)) hc))

theorem stochastic (kPeriod dPeriod slowing : Nat) (hh : p.lists high high')
    (hl : p.lists low low') (hc : p.lists close close') :
    p.lists (stochastic high low close kPeriod dPeriod slowing).k
        (stochastic high' low' close' kPeriod dPeriod slowing).k ∧
      p.lists (stochastic high low close kPeriod dPeriod slowing).d
        (stochastic high' low' close' kPeriod dPeriod slowing).d := by
  have hk := p.sma slowing (p.rangePositions kPeriod hh hl hc)
  exact ⟨hk, p.sma dPeriod hk⟩

theorem cci (period : Nat) (hh : p.lists high high') (hl : p.lists low low')
    (hc : p.lists close close') :
    p.lists (cci high low close period) (cci high' low' close' period) := by
  have htypical := p.typicalPrices hh hl hc
  exact p.map _ (p.zip (p.windows period htypical) htypical)

theorem supertrend (period : Nat) (multiplier : Float) (hh : p.lists high high')
    (hl : p.lists low low') (hc : p.lists close close') :
    p.lists (supertrend high low close period multiplier)
      (supertrend high' low' close' period multiplier) := by
  unfold Indicator.supertrend
  split
  · exact p.absent hc
  · exact p.scan _ _ (p.bars hh hl hc)

-- A crossing looks back by one position and at nothing else.
theorem crossing (turned : Float → Float → Float → Float → Bool) {a a' b b' : Series}
    (ha : p.lists a a') (hb : p.lists b b') :
    p.lists (crossing turned a b) (crossing turned a' b') := by
  have hlength := p.max (p.length ha) (p.length hb)
  exact p.map _ (p.lookBack _ (p.zip (p.fit hlength ha) (p.fit hlength hb)))

theorem mfi (period : Nat) (hh : p.lists high high') (hl : p.lists low low')
    (hc : p.lists close close') (hv : p.lists volume volume') :
    p.lists (mfi high low close volume period) (mfi high' low' close' volume' period) := by
  have htypical := p.typicalPrices hh hl hc
  have hflows := p.lookBackBeside none htypical (p.fitTo hv htypical)
  exact p.map _ (p.windows period (p.map _ hflows))

theorem obv (hc : p.lists close close') (hv : p.lists volume volume') :
    p.lists (obv close volume) (obv close' volume') :=
  p.scan _ _ (p.zip hc (p.fitTo hv hc))

theorem vwap (hh : p.lists high high') (hl : p.lists low low') (hc : p.lists close close')
    (hv : p.lists volume volume') :
    p.lists (vwap high low close volume) (vwap high' low' close' volume') := by
  have htypical := p.typicalPrices hh hl hc
  exact p.scan _ _ (p.zip htypical (p.fitTo hv htypical))

end CandleScript.Pairing
