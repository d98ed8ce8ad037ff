import CandleScript.Indicator.Trend
import CandleScript.Indicator.Volume
import CandleScript.Run.Error
import CandleScript.Run.Record

namespace CandleScript

-- A call of a function with evaluated arguments; `length` is the number of
-- candles, to which numbers are spread.
structure Call where
  function : Builtin
  values : List Value
  length : Nat

namespace Call

def fail {α : Type} (call : Call) (fault : ArgumentFault) : Except RuntimeError α :=
  .error (.invalidArgument call.function fault)

def argument (call : Call) (index : Nat) : Except RuntimeError Value :=
  match call.values[index]? with
  | some value => .ok value
  | none => .error (.missingArgument call.function index)

def series (call : Call) (index : Nat) : Except RuntimeError Series := do
  match (← call.argument index).toSeries? call.length with
  | some values => .ok values
  | none => call.fail (.notSeries index)

def condition (call : Call) (index : Nat) : Except RuntimeError (List Bool) := do
  match (← call.argument index).toBools? call.length with
  | some values => .ok values
  | none => call.fail (.notCondition index)

def number (call : Call) (index : Nat) : Except RuntimeError Float := do
  let value ← call.argument index
  match value.number? with
  | some x => if x.isFinite then .ok x else call.fail (.notFinite index value.type)
  | none => call.fail (.notFinite index value.type)

-- A period is a whole number from one on.
def period (call : Call) (index : Nat) : Except RuntimeError Nat := do
  let x ← call.number index
  if x < 1.0 || !Number.isWhole x then call.fail (.notPeriod x) else .ok (Number.toCount x)

-- A percentage that may be left out.
def percentage? (call : Call) (index : Nat) : Except RuntimeError (Option Float) :=
  if call.values.length ≤ index then .ok none
  else do
    let x ← call.number index
    if x ≤ 0.0 then call.fail (.notPercentage index x) else .ok (some x)

-- A string that may be left out.
def textOr (call : Call) (index : Nat) (otherwise : String) : Except RuntimeError String :=
  match call.values[index]? with
  | none => .ok otherwise
  | some (.text value) => .ok value
  | some value => call.fail (.notText index value.type)

def namedText (call : Call) (index : Nat) (what : String) : Except RuntimeError String := do
  match ← call.argument index with
  | .text value => .ok value
  | value => call.fail (.notNamedText what value.type)

-- What a call gives back, and what it leaves behind.
abbrev Result := Value × Option Record

def plain (value : Value) : Result := (value, none)

def indicator (values : Series) : Result := plain (.series values)

def macd (call : Call) : Except RuntimeError Indicator.Macd := do
  return Indicator.macd (← call.series 0) (← call.period 1) (← call.period 2) (← call.period 3)

def bollinger (call : Call) : Except RuntimeError Indicator.Bands := do
  return Indicator.bollinger (← call.series 0) (← call.period 1) (← call.number 2)

def stochastic (call : Call) : Except RuntimeError Indicator.Stochastic := do
  return Indicator.stochastic (← call.series 0) (← call.series 1) (← call.series 2)
    (← call.period 3) (← call.period 4) (← call.period 5)

-- The values that a plot draws.
def plotted (call : Call) : Except RuntimeError Value := do
  let value ← call.argument 0
  match value with
  | .series _ => .ok value
  | .boolSeries _ => return .series (← call.series 0)
  | _ => call.fail (.notShown value.type)

-- A plot gives its first argument back.
def plot (call : Call) : Except RuntimeError Result := do
  let values ← call.plotted
  let title ← call.textOr 1 "Plot"
  let color ← call.textOr 2 "#2962FF"
  return (← call.argument 0, some (.plot ⟨title, color, .line, values⟩))

-- The first argument of the functions that mark candles has to be a series.
def shownFirst (call : Call) : Except RuntimeError Value := do
  let value ← call.argument 0
  if value.isSeries then .ok value else call.fail (.notShown value.type)

def plotshape (call : Call) : Except RuntimeError Result := do
  let value ← call.shownFirst
  let title ← call.textOr 1 "Shape"
  let color ← call.textOr 2 "#26A69A"
  return (value, some (.plot ⟨title, color, .shape, .boolSeries (← call.condition 0)⟩))

def bgcolor (call : Call) : Except RuntimeError Result := do
  let value ← call.shownFirst
  let color ← call.textOr 1 "#FFEB3B"
  return (value, some (.plot ⟨"", color, .background, .boolSeries (← call.condition 0)⟩))

def direction (call : Call) (index : Nat) : Except RuntimeError Direction := do
  let text ← call.namedText index "direction"
  match Direction.ofText? text with
  | some direction => .ok direction
  | none => call.fail (.notDirection text)

def strategyEntry (call : Call) : Except RuntimeError Result := do
  let id ← call.namedText 0 "id"
  let direction ← call.direction 1
  let condition ← call.condition 2
  let stopLossPct ← call.percentage? 3
  let takeProfitPct ← call.percentage? 4
  return (.boolSeries condition,
    some (.event (.entry { id, direction, condition, stopLossPct, takeProfitPct })))

def strategyClose (call : Call) : Except RuntimeError Result := do
  let id ← call.namedText 0 "id"
  let condition ← call.condition 1
  return (.boolSeries condition, some (.event (.close { id, condition })))

-- The result of a call with an accepted number of arguments. Arguments are
-- judged from left to right.
def apply (call : Call) : Except RuntimeError Result :=
  match call.function with
  | .sma => return indicator (Indicator.sma (← call.series 0) (← call.period 1))
  | .ema => return indicator (Indicator.ema (← call.series 0) (← call.period 1))
  | .rsi => return indicator (Indicator.rsi (← call.series 0) (← call.period 1))
  | .macd => return indicator (← call.macd).line
  | .macdSignal => return indicator (← call.macd).signal
  | .macdHist => return indicator (← call.macd).histogram
  | .bbUpper => return indicator (← call.bollinger).upper
  | .bbLower => return indicator (← call.bollinger).lower
  | .stochK => return indicator (← call.stochastic).k
  | .stochD => return indicator (← call.stochastic).d
  | .supertrend =>
    return indicator (Indicator.supertrend (← call.series 0) (← call.series 1) (← call.series 2)
      (← call.period 3) (← call.number 4))
  | .vwap =>
    return indicator (Indicator.vwap (← call.series 0) (← call.series 1) (← call.series 2)
      (← call.series 3))
  | .cci =>
    return indicator (Indicator.cci (← call.series 0) (← call.series 1) (← call.series 2)
      (← call.period 3))
  | .mfi =>
    return indicator (Indicator.mfi (← call.series 0) (← call.series 1) (← call.series 2)
      (← call.series 3) (← call.period 4))
  | .obv => return indicator (Indicator.obv (← call.series 0) (← call.series 1))
  | .crossover =>
    return plain (.boolSeries (Indicator.crossover (← call.series 0) (← call.series 1)))
  | .crossunder =>
    return plain (.boolSeries (Indicator.crossunder (← call.series 0) (← call.series 1)))
  | .plot => call.plot
  | .plotshape => call.plotshape
  | .bgcolor => call.bgcolor
  | .strategyEntry => call.strategyEntry
  | .strategyClose => call.strategyClose

-- The result of a call by name, once its arguments are evaluated.
def perform (func : String) (values : List Value) (length : Nat) : Except RuntimeError Result :=
  match Builtin.lookup? func with
  | none => .error (.unknownFunction func)
  | some function =>
    let call : Call := { function, values, length }
    if function.accepts values.length then call.apply
    else call.fail (.count function.arity values.length)

end Call

end CandleScript
