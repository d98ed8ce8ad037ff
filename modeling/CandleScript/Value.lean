import CandleScript.Ir.Node
import CandleScript.Json.Write
import CandleScript.Series

namespace CandleScript

inductive Value where
  | number (value : Float)
  | bool (value : Bool)
  | series (values : Series)
  | boolSeries (values : List Bool)
  | text (value : String)
  deriving DecidableEq

-- The shape of a value, for messages.
inductive ValueType where
  | number
  | bool
  | series
  | boolSeries
  | text
  deriving DecidableEq, Repr

def ValueType.name : ValueType → String
  | number => "number"
  | bool => "bool"
  | series => "series"
  | boolSeries => "bool series"
  | text => "string"

-- A present number other than zero is true.
def truthy : Option Float → Bool
  | some x => x != 0.0 && !x.isNaN
  | none => false

def boolNumber (b : Bool) : Float := if b then 1.0 else 0.0

namespace Value

def type : Value → ValueType
  | number _ => .number
  | bool _ => .bool
  | series _ => .series
  | boolSeries _ => .boolSeries
  | text _ => .text

def isSeries : Value → Bool
  | series _ | boolSeries _ => true
  | _ => false

def seriesLength? : Value → Option Nat
  | series values => some values.length
  | boolSeries values => some values.length
  | _ => none

-- The number of a value that is not a series; booleans count as one and zero.
def number? : Value → Option Float
  | number value => some value
  | bool value => some (boolNumber value)
  | _ => none

-- A value as a series. What is not a series is repeated `length` times.
def toSeries? (length : Nat) : Value → Option Series
  | series values => some values
  | boolSeries values => some (values.map fun b => some (boolNumber b))
  | number value => some (List.replicate length (some value))
  | bool value => some (List.replicate length (some (boolNumber value)))
  | text _ => none

def toBools? (length : Nat) : Value → Option (List Bool)
  | boolSeries values => some values
  | series values => some (values.map truthy)
  | number value => some (List.replicate length (truthy (some value)))
  | bool value => some (List.replicate length (truthy (some (boolNumber value))))
  | text _ => none

def ofConstant : Ir.Constant → Value
  | .number value => number value
  | .bool value => bool value
  | .text value => text value

def toJson : Value → Json
  | number value => .real value
  | bool value => .bool value
  | series values => .list (values.map fun v => match v with
    | some x => .real x
    | none => .null)
  | boolSeries values => .list (values.map .bool)
  | text value => .text value

end Value

end CandleScript
