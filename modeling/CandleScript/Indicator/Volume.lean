import CandleScript.Indicator.Momentum

namespace CandleScript.Indicator

open Series (fit windows)

-- Positive and negative money flow of a bar against the price before it.
def moneyFlow (before price volume : Float) : Float × Float :=
  let flow := price * volume
  if before < price then (flow, 0.0) else if price < before then (0.0, flow) else (0.0, 0.0)

def moneyFlows (typical volume : Series) : List (Option (Float × Float)) :=
  let volume := fit typical.length volume
  ((none :: typical).zip (typical.zip volume)).map fun (before, price, volume) =>
    match before, price, volume with
    | some before, some price, some volume => some (moneyFlow before price volume)
    | _, _, _ => none

def flowIndex (flows : List (Float × Float)) : Float :=
  let (positive, negative) := flows.foldl (fun (p, n) (q, m) => (p + q, n + m)) (0.0, 0.0)
  if negative == 0.0 then 100.0 else 100.0 - 100.0 / (1.0 + positive / negative)

-- The money flow index: the flows of each window on a scale to 100.
def mfi (high low close volume : Series) (period : Nat) : Series :=
  (windows period (moneyFlows (typicalPrices high low close) volume)).map fun w => w.map flowIndex

-- The total so far and the last close.
structure Obv where
  total : Float
  close : Option Float

def Obv.move (state : Obv) (close volume : Float) : Float :=
  match state.close with
  | some before =>
    if before < close then state.total + volume
    else if close < before then state.total - volume
    else state.total
  | none => state.total

def Obv.step (state : Obv) : Option Float × Option Float → Option Float × Obv
  | (some close, some volume) =>
    let total := state.move close volume
    (some total, ⟨total, some close⟩)
  | _ => (none, state)

-- The on-balance volume: volume is added on rising and taken off on falling
-- closes. A bar with a gap has no value and does not move the total.
def obv (close volume : Series) : Series :=
  Series.scan Obv.step ⟨0.0, none⟩ (close.zip (fit close.length volume))

def vwapStep : Float × Float → Option Float × Option Float → Option Float × (Float × Float)
  | (worth, volume), (some price, some v) =>
    let worth := worth + price * v
    let volume := volume + v
    (if volume != 0.0 then some (worth / volume) else none, (worth, volume))
  | state, _ => (none, state)

-- The volume weighted average price since the first candle; absent as long as
-- the volumes add up to zero.
def vwap (high low close volume : Series) : Series :=
  let typical := typicalPrices high low close
  Series.scan vwapStep (0.0, 0.0) (typical.zip (fit typical.length volume))

end CandleScript.Indicator
