import CandleScript.Run.Record
import CandleScript.Series

namespace CandleScript

-- The percentages of an entry that has none of its own.
structure Risk where
  stopLossPct : Float
  takeProfitPct : Float
  deriving DecidableEq

def Risk.standard : Risk := ⟨2.0, 4.0⟩

-- The prices at which a position is closed.
structure ExitLevels where
  stopLoss : Float
  takeProfit : Float
  deriving DecidableEq

-- A long position has its stop below the price and its target above, a short
-- one the other way round.
def exitLevels (price : Float) (direction : Direction) (stopLossPct takeProfitPct : Float) :
    ExitLevels :=
  let risk := stopLossPct / 100.0
  let reward := takeProfitPct / 100.0
  match direction with
  | .long => ⟨price * (1.0 - risk), price * (1.0 + reward)⟩
  | .short => ⟨price * (1.0 + risk), price * (1.0 - reward)⟩

-- What to do at the price of the last candle.
inductive Signal where
  | entry (id : String) (direction : Direction) (price : Float) (levels : ExitLevels)
  | close (id : String) (price : Float)
  deriving DecidableEq

namespace Signal

def ofEvent (risk : Risk) (price : Float) : Event → Signal
  | .entry e =>
    .entry e.id e.direction price (exitLevels price e.direction
      (e.stopLossPct.getD risk.stopLossPct) (e.takeProfitPct.getD risk.takeProfitPct))
  | .close e => .close e.id price

def toJson : Signal → Json
  | entry id direction price levels =>
    .object [("id", .text id), ("action", .text "entry"), ("direction", .text direction.name),
      ("price", .real price), ("stop_loss", .real levels.stopLoss),
      ("take_profit", .real levels.takeProfit)]
  | close id price => .object [("id", .text id), ("action", .text "close"), ("price", .real price)]

end Signal

-- The events whose condition holds at the last candle, in their order. There
-- are none if that candle has no close.
def latestSignals (events : List Event) (close : Series) (risk : Risk) : List Signal :=
  match close.getLast? with
  | some (some price) =>
    let last := close.length - 1
    (events.filter fun event => event.condition[last]?.getD false).map (Signal.ofEvent risk price)
  | _ => []

end CandleScript
