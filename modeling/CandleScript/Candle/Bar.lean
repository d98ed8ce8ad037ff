import CandleScript.Candle.Date

namespace CandleScript

-- One candle.
structure Bar where
  date : Date
  opening : Float
  high : Float
  low : Float
  close : Float
  volume : Float

end CandleScript
