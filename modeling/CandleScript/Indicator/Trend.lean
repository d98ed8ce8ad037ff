import CandleScript.Indicator.Momentum

namespace CandleScript.Indicator

open Series (fit)

-- The widest of a bar's own range and its distances from the last close.
def trueRange (high low before : Float) : Float :=
  Number.larger (Number.larger (high - low) (high - before).abs) (low - before).abs

-- The average true range: the sum of the first ranges, or the average.
inductive RangeAverage where
  | seeding (total : Float) (seen : Nat)
  | running (average : Float)

def RangeAverage.add (period : Nat) (range : Float) : RangeAverage → RangeAverage
  | running average =>
    let p := Number.ofCount period
    running ((average * (p - 1.0) + range) / p)
  | seeding total seen =>
    if seen + 1 = period then running ((total + range) / Number.ofCount period)
    else seeding (total + range) (seen + 1)

-- The bands of the last bar that had them.
structure TrendBands where
  upper : Float
  lower : Float

structure Supertrend where
  close : Option Float
  range : RangeAverage
  bands : Option TrendBands
  up : Bool

def Supertrend.start : Supertrend := ⟨none, .seeding 0.0 0, none, true⟩

-- A band moves towards the price only, unless the last close was beyond it.
def nextBands (basic : TrendBands) (before : Option TrendBands) (close : Option Float) : TrendBands :=
  match before, close with
  | some last, some c =>
    { upper := if basic.upper < last.upper || last.upper < c then basic.upper else last.upper
      lower := if last.lower < basic.lower || c < last.lower then basic.lower else last.lower }
  | _, _ => basic

-- The trend turns when the close passes the band that stands against it.
def nextTrend (up : Bool) (bands : TrendBands) (close : Float) : Bool :=
  if up && close < bands.lower then false
  else if !up && bands.upper < close then true
  else up

def Supertrend.step (period : Nat) (multiplier : Float) (state : Supertrend) :
    Option (Float × Float × Float) → Option Float × Supertrend
  | none => (none, state)
  | some (high, low, close) =>
    let range := match state.close with
      | some before => trueRange high low before
      | none => high - low
    match state.range.add period range with
    | .seeding total seen => (none, { state with close := some close, range := .seeding total seen })
    | .running average =>
      let middle := (high + low) / 2.0
      let basic : TrendBands := ⟨middle + multiplier * average, middle - multiplier * average⟩
      let bands := nextBands basic state.bands state.close
      let up := nextTrend state.up bands close
      (some (if up then bands.lower else bands.upper),
        ⟨some close, .running average, some bands, up⟩)

-- The lower band while the trend is up and the upper band while it is down.
def supertrend (high low close : Series) (period : Nat) (multiplier : Float) : Series :=
  if period = 0 then absent close
  else Series.scan (Supertrend.step period multiplier) .start (bars high low close)

-- Whether two lines change sides at a position, seen from the position before.
def crossing (turned : (a b c d : Float) → Bool) (a b : Series) : List Bool :=
  let length := max a.length b.length
  let a := fit length a
  let b := fit length b
  (((none :: a).zip (none :: b)).zip (a.zip b)).map fun ((before, against), now, other) =>
    match before, against, now, other with
    | some before, some against, some now, some other => turned before against now other
    | _, _, _, _ => false

def crossover (a b : Series) : List Bool :=
  crossing (fun before against now other => before ≤ against && other < now) a b

def crossunder (a b : Series) : List Bool :=
  crossing (fun before against now other => against ≤ before && now < other) a b

end CandleScript.Indicator
