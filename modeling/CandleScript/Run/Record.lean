import CandleScript.Text.Lowercase
import CandleScript.Value

namespace CandleScript

inductive PlotStyle where
  | line
  | shape
  | background
  deriving DecidableEq, Repr

def PlotStyle.name : PlotStyle → String
  | line => "line"
  | shape => "shape"
  | background => "background"

-- Something to draw over the candles.
structure Plot where
  title : String
  color : String
  style : PlotStyle
  values : Value
  deriving DecidableEq

inductive Direction where
  | long
  | short
  deriving DecidableEq, Repr

namespace Direction

def name : Direction → String
  | long => "long"
  | short => "short"

-- Both directions have two names, in any letter case.
def ofText? (text : String) : Option Direction :=
  let lower := Text.lowercase text
  if lower = "long" ∨ lower = "buy" then some long
  else if lower = "short" ∨ lower = "sell" then some short
  else none

end Direction

-- A wish to open a position wherever the condition holds.
structure Entry where
  id : String
  direction : Direction
  condition : List Bool
  stopLossPct : Option Float
  takeProfitPct : Option Float
  deriving DecidableEq

-- A wish to close a position wherever the condition holds.
structure Exit where
  id : String
  condition : List Bool
  deriving DecidableEq

inductive Event where
  | entry (entry : Entry)
  | close (exit : Exit)
  deriving DecidableEq

-- What a call leaves behind besides its value.
inductive Record where
  | plot (plot : Plot)
  | event (event : Event)
  deriving DecidableEq

def Plot.toJson (p : Plot) : Json :=
  .object [("title", .text p.title), ("color", .text p.color), ("style", .text p.style.name),
    ("values", p.values.toJson)]

namespace Event

def condition : Event → List Bool
  | entry e => e.condition
  | close e => e.condition

def toJson : Event → Json
  | entry e =>
    .object ([("type", .text "entry"), ("id", .text e.id), ("direction", .text e.direction.name),
      ("condition", .list (e.condition.map .bool))] ++
      Json.optional "stop_loss_pct" (e.stopLossPct.map .real) ++
      Json.optional "take_profit_pct" (e.takeProfitPct.map .real))
  | close e =>
    .object [("type", .text "close"), ("id", .text e.id), ("condition", .list (e.condition.map .bool))]

end Event

end CandleScript
