import CandleScript.Indicator.Average

namespace CandleScript.Indicator

open Series (fit windows)

-- The mean of high, low and close of one candle.
def typicalPrice (high low close : Float) : Float := (high + low + close) / 3.0

-- A complete bar's three prices, position by position. The close gives the
-- length.
def bars (high low close : Series) : List (Option (Float × Float × Float)) :=
  let high := fit close.length high
  let low := fit close.length low
  (high.zip (low.zip close)).map fun (h, l, c) =>
    match h, l, c with
    | some h, some l, some c => some (h, l, c)
    | _, _, _ => none

def typicalPrices (high low close : Series) : Series :=
  (bars high low close).map fun bar => bar.map fun (h, l, c) => typicalPrice h l c

-- The strength of average gains against average losses on a scale to 100.
def strength (gain loss : Float) : Float :=
  if loss == 0.0 then 100.0 else 100.0 - 100.0 / (1.0 + gain / loss)

-- The sums of the first changes, or the running averages.
inductive Rsi where
  | seeding (gains losses : Float) (seen : Nat)
  | running (gain loss : Float)

def Rsi.change (period : Nat) (state : Rsi) (change : Float) : Option Float × Rsi :=
  let p := Number.ofCount period
  let up := Number.larger change 0.0
  let down := Number.larger (-change) 0.0
  match state with
  | running gain loss =>
    let gain := (gain * (p - 1.0) + up) / p
    let loss := (loss * (p - 1.0) + down) / p
    (some (strength gain loss), running gain loss)
  | seeding gains losses seen =>
    let gains := gains + up
    let losses := losses + down
    if seen + 1 < period then (none, seeding gains losses (seen + 1))
    else (some (strength (gains / p) (losses / p)), running (gains / p) (losses / p))

-- The previous value, if there is one, is carried along with the averages.
def Rsi.step (period : Nat) : Option Float × Rsi → Option Float → Option Float × (Option Float × Rsi)
  | (previous, state), x =>
    match previous, x with
    | some before, some now =>
      let (value, state) := state.change period (now - before)
      (value, (x, state))
    | _, _ => (none, (x, state))

-- Wilder's relative strength index over changes between neighbours.
def rsi (source : Series) (period : Nat) : Series :=
  if period = 0 then absent source
  else Series.scan (Rsi.step period) (none, .seeding 0.0 0.0 0) source

-- Where the close stands between the lowest low and the highest high.
def rangePosition (highs lows : List Float) (close : Float) : Float :=
  let top := highs.foldl Number.larger (-(1.0 / 0.0))
  let bottom := lows.foldl Number.smaller (1.0 / 0.0)
  let range := top - bottom
  if range == 0.0 then 50.0 else 100.0 * (close - bottom) / range

def rangePositions (high low close : Series) (period : Nat) : Series :=
  let highs := windows period (fit close.length high)
  let lows := windows period (fit close.length low)
  (highs.zip (lows.zip close)).map fun (hs, ls, c) =>
    match hs, ls, c with
    | some hs, some ls, some c => some (rangePosition hs ls c)
    | _, _, _ => none

structure Stochastic where
  k : Series
  d : Series

-- The stochastic oscillator: range positions, smoothed twice.
def stochastic (high low close : Series) (kPeriod dPeriod slowing : Nat) : Stochastic :=
  let k := sma (rangePositions high low close kPeriod) slowing
  { k, d := sma k dPeriod }

-- The distance from the mean in units of the mean absolute deviation.
def channelIndex (prices : List Float) (current : Float) : Float :=
  let n := Number.ofCount prices.length
  let mean := Number.sum prices / n
  let deviation := Number.sum (prices.map fun x => (x - mean).abs) / n
  if deviation == 0.0 then 0.0 else (current - mean) / (0.015 * deviation)

-- The commodity channel index of typical prices.
def cci (high low close : Series) (period : Nat) : Series :=
  let typical := typicalPrices high low close
  ((windows period typical).zip typical).map fun (w, current) =>
    match w, current with
    | some prices, some current => some (channelIndex prices current)
    | _, _ => none

end CandleScript.Indicator
