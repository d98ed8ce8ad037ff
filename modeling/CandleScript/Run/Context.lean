import CandleScript.Bindings
import CandleScript.Candle.Bar
import CandleScript.Run.Error

namespace CandleScript

-- The names of a run and their values: the candle data and what the script
-- assigns.
abbrev Context := Bindings Value

namespace Context

def column (values : List Float) : Value := .series (values.map some)

-- Binds a column if it is as long as the close.
def bindColumn (expected : Nat) (context : Context) (name : String) (values : List Float) :
    Except RuntimeError Context :=
  if values.length = expected then .ok (context.set name (column values))
  else .error (.invalidContext name expected values.length)

-- A context of five columns of one length, judged in the order open, high,
-- low, close, volume.
def ofColumns (opening high low close volume : List Float) : Except RuntimeError Context :=
  [("open", opening), ("high", high), ("low", low), ("close", close), ("volume", volume)].foldlM
    (fun context entry => bindColumn close.length context entry.1 entry.2) .empty

def ofBars (bars : List Bar) : Context :=
  Bindings.empty
    |>.set "open" (column (bars.map Bar.opening))
    |>.set "high" (column (bars.map Bar.high))
    |>.set "low" (column (bars.map Bar.low))
    |>.set "close" (column (bars.map Bar.close))
    |>.set "volume" (column (bars.map Bar.volume))

-- The number of candles: the length of the close, if it is a series.
def candleCount (context : Context) : Nat :=
  ((context.get? "close").bind Value.seriesLength?).getD 0

def series? (context : Context) (name : String) : Option Series :=
  match context.get? name with
  | some (.series values) => some values
  | _ => none

-- The bindings other than the candle data.
def userEntries (context : Context) : List (String × Value) :=
  context.entries.filter fun entry => !isReserved entry.1

def toJson (context : Context) : Json :=
  .object (context.entries.map fun (name, value) => (name, value.toJson))

end Context

end CandleScript
