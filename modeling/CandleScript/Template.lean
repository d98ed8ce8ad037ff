import CandleScript.Json.Basic

namespace CandleScript

-- A script to start from.
structure Template where
  id : String
  name : String
  description : String
  tags : List String
  source : String
  deriving DecidableEq, Repr

namespace Template

def ofLines (lines : List String) : String := String.join (lines.map (· ++ "\n"))

def maCrossover : Template where
  id := "ma-crossover"
  name := "MA Crossover"
  description := "EMA 9/21 crossover: long on cross up, short on cross down"
  tags := ["ema", "trend", "crossover"]
  source := ofLines [
    "// EMA 9/21 crossover",
    "fast = ema(close, 9)",
    "slow = ema(close, 21)",
    "plot(fast, \"EMA 9\", \"#2962FF\")",
    "plot(slow, \"EMA 21\", \"#FF6D00\")",
    "strategy.entry(\"ma-long\", \"long\", crossover(fast, slow))",
    "strategy.entry(\"ma-short\", \"short\", crossunder(fast, slow))"]

def rsiReversal : Template where
  id := "rsi-reversal"
  name := "RSI Reversal"
  description := "RSI 14: long below 30, short above 70"
  tags := ["rsi", "momentum", "mean-reversion"]
  source := ofLines [
    "// RSI 14 oversold / overbought",
    "length = 14",
    "strength = rsi(close, length)",
    "plot(strength, \"RSI 14\", \"#7E57C2\")",
    "oversold = strength < 30",
    "overbought = strength > 70",
    "plotshape(oversold, \"Oversold\", \"#26A69A\")",
    "strategy.entry(\"rsi-long\", \"long\", oversold)",
    "strategy.entry(\"rsi-short\", \"short\", overbought)"]

def momentumBreakout : Template where
  id := "momentum-breakout"
  name := "Momentum Breakout"
  description := "Close crossing the Bollinger 20/2 bands"
  tags := ["bollinger", "breakout", "volatility"]
  source := ofLines [
    "// Bollinger 20/2 breakout",
    "upper = bb_upper(close, 20, 2)",
    "lower = bb_lower(close, 20, 2)",
    "plot(upper, \"Upper\", \"#EF5350\")",
    "plot(lower, \"Lower\", \"#26A69A\")",
    "strategy.entry(\"bb-long\", \"long\", crossover(close, upper))",
    "strategy.entry(\"bb-short\", \"short\", crossunder(close, lower))"]

def all : List Template := [maCrossover, rsiReversal, momentumBreakout]

-- Templates are found in any case of the ASCII letters.
def find? (id : String) : Option Template := all.find? fun t => t.id.toLower = id.toLower

def toJson (t : Template) : Json :=
  .object [("id", .text t.id), ("name", .text t.name), ("description", .text t.description),
    ("tags", .list (t.tags.map .text)), ("source", .text t.source)]

end Template

end CandleScript
