import CandleScript.Text.Lowercase

namespace CandleScript

-- The series that every context starts with; scripts may not assign them.
def reservedSeries : List String := ["open", "high", "low", "close", "volume"]

def isReserved (name : String) : Bool := reservedSeries.contains name

-- The functions a script can call.
inductive Builtin where
  | sma
  | ema
  | rsi
  | macd
  | macdSignal
  | macdHist
  | bbUpper
  | bbLower
  | stochK
  | stochD
  | supertrend
  | vwap
  | cci
  | mfi
  | obv
  | crossover
  | crossunder
  | plot
  | plotshape
  | bgcolor
  | strategyEntry
  | strategyClose
  deriving DecidableEq, Repr

namespace Builtin

def all : List Builtin :=
  [sma, ema, rsi, macd, macdSignal, macdHist, bbUpper, bbLower, stochK, stochD, supertrend, vwap,
    cci, mfi, obv, crossover, crossunder, plot, plotshape, bgcolor, strategyEntry, strategyClose]

def name : Builtin → String
  | sma => "sma"
  | ema => "ema"
  | rsi => "rsi"
  | macd => "macd"
  | macdSignal => "macd_signal"
  | macdHist => "macd_hist"
  | bbUpper => "bb_upper"
  | bbLower => "bb_lower"
  | stochK => "stoch_k"
  | stochD => "stoch_d"
  | supertrend => "supertrend"
  | vwap => "vwap"
  | cci => "cci"
  | mfi => "mfi"
  | obv => "obv"
  | crossover => "crossover"
  | crossunder => "crossunder"
  | plot => "plot"
  | plotshape => "plotshape"
  | bgcolor => "bgcolor"
  | strategyEntry => "strategy.entry"
  | strategyClose => "strategy.close"

-- The parameters as they are shown to the author of a script; a question mark
-- stands after those that may be left out.
def parameters : Builtin → String
  | sma | ema | rsi => "source, period"
  | macd | macdSignal | macdHist => "source, fast, slow, signal"
  | bbUpper | bbLower => "source, period, mult"
  | stochK | stochD => "high, low, close, k_period, d_period, slowing"
  | supertrend => "high, low, close, period, multiplier"
  | vwap => "high, low, close, volume"
  | cci => "high, low, close, period"
  | mfi => "high, low, close, volume, period"
  | obv => "close, volume"
  | crossover | crossunder => "a, b"
  | plot => "series, title?, color?"
  | plotshape => "condition, title?, color?"
  | bgcolor => "condition, color?"
  | strategyEntry => "id, direction, condition, stop_loss_pct?, take_profit_pct?"
  | strategyClose => "id, condition"

-- The least and the greatest number of arguments.
def arityBounds : Builtin → Nat × Nat
  | sma | ema | rsi | obv | crossover | crossunder | strategyClose => (2, 2)
  | bbUpper | bbLower => (3, 3)
  | macd | macdSignal | macdHist | vwap | cci => (4, 4)
  | supertrend | mfi => (5, 5)
  | stochK | stochD => (6, 6)
  | plot | plotshape => (1, 3)
  | bgcolor => (1, 2)
  | strategyEntry => (3, 5)

inductive Group where
  | indicator
  | visual
  | strategy
  deriving DecidableEq, Repr

def group : Builtin → Group
  | plot | plotshape | bgcolor => .visual
  | strategyEntry | strategyClose => .strategy
  | _ => .indicator

def accepts (b : Builtin) (count : Nat) : Bool :=
  b.arityBounds.1 ≤ count && count ≤ b.arityBounds.2

def arity (b : Builtin) : String :=
  let (least, most) := b.arityBounds
  if least = most then toString least else s!"{least} to {most}"

def signature (b : Builtin) : String := s!"{b.name}({b.parameters})"

-- Function names are found in any letter case.
def lookup? (name : String) : Option Builtin :=
  let lower := Text.lowercase name
  all.find? fun b => b.name = lower

theorem lowercase_name (b : Builtin) : Text.lowercase b.name = b.name := by
  cases b <;> rfl

theorem name_of_lookup? {name : String} {b : Builtin} (h : lookup? name = some b) :
    b.name = Text.lowercase name := by
  have hname := List.find?_some h
  exact of_decide_eq_true hname

theorem lookup?_lowercase {name : String} {b : Builtin} (h : lookup? name = some b) :
    lookup? (Text.lowercase name) = some b := by
  rw [lookup?, ← name_of_lookup? h, lowercase_name, name_of_lookup? h]
  exact h

end Builtin

end CandleScript
