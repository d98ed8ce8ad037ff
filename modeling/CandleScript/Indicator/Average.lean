import CandleScript.Number.Arithmetic
import CandleScript.Series

namespace CandleScript.Indicator

open Series (windows)

-- The simple moving average: the mean of each window.
def sma (source : Series) (period : Nat) : Series :=
  (windows period source).map fun w => w.map fun xs => Number.sum xs / Number.ofCount period

-- The mean of a list and the square root of its mean squared deviation.
def meanDeviation (xs : List Float) : Float × Float :=
  let n := Number.ofCount xs.length
  let mean := Number.sum xs / n
  let variance := Number.sum (xs.map fun x => (x - mean) * (x - mean)) / n
  (mean, variance.sqrt)

def stddev (source : Series) (period : Nat) : Series :=
  (windows period source).map fun w => w.map fun xs => (meanDeviation xs).2

structure Bands where
  upper : Series
  middle : Series
  lower : Series

-- Bollinger bands: a number of deviations above and below the mean.
def bollinger (source : Series) (period : Nat) (mult : Float) : Bands :=
  let stats := (windows period source).map fun w => w.map meanDeviation
  { upper := stats.map fun s => s.map fun (mean, deviation) => mean + mult * deviation
    middle := stats.map fun s => s.map fun (mean, _) => mean
    lower := stats.map fun s => s.map fun (mean, deviation) => mean - mult * deviation }

-- Before the first average its values are summed and counted; after that the
-- last average is kept.
inductive Ema where
  | seeding (total : Float) (seen : Nat)
  | running (average : Float)

def Ema.step (period : Nat) (weight : Float) : Ema → Option Float → Option Float × Ema
  | state, none => (none, state)
  | running average, some x =>
    let next := x * weight + average * (1.0 - weight)
    (some next, running next)
  | seeding total seen, some x =>
    let total := total + x
    if seen + 1 = period then
      let average := total / Number.ofCount period
      (some average, running average)
    else (none, seeding total (seen + 1))

def absent (s : Series) : Series := s.map fun _ => none

-- The exponential moving average, seeded with the mean of the first `period`
-- present values. A gap has no value and leaves the average as it is.
def ema (source : Series) (period : Nat) : Series :=
  if period = 0 then absent source
  else
    let weight := 2.0 / (Number.ofCount period + 1.0)
    Series.scan (Ema.step period weight) (.seeding 0.0 0) source

structure Macd where
  line : Series
  signal : Series
  histogram : Series

-- The distance of two averages, its own average, and the distance of both.
def macd (source : Series) (fast slow signal : Nat) : Macd :=
  let line := Series.combine (· - ·) (ema source fast) (ema source slow)
  let average := ema line signal
  { line, signal := average, histogram := Series.combine (· - ·) line average }

end CandleScript.Indicator
