import CandleScript.Candle.Bar
import CandleScript.Candle.Table
import CandleScript.Number.Read

namespace CandleScript

namespace Candle

-- The columns that hold numbers, in their order behind the date.
inductive Column where
  | opening
  | high
  | low
  | close
  | volume
  deriving DecidableEq, Repr

def Column.name : Column → String
  | opening => "open"
  | high => "high"
  | low => "low"
  | close => "close"
  | volume => "volume"

def Column.index : Column → Nat
  | opening => 1
  | high => 2
  | low => 3
  | close => 4
  | volume => 5

-- What is wrong with a row.
inductive Flaw where
  | missing (column : String)
  | badDate (raw : String) (fault : Date.Fault)
  | badNumber (column : Column) (raw : String) (fault : Number.ReadError)
  | notFinite (column : Column)
  deriving DecidableEq, Repr

def Flaw.message : Flaw → String
  | missing column => s!"missing {column} column"
  | badDate raw fault => s!"invalid date '{raw}': {fault.message}"
  | badNumber column raw fault => s!"invalid {column.name} value '{raw}': {fault.message}"
  | notFinite column => s!"{column.name} must be finite"

inductive LoadError where
  | table (e : Table.Uneven)
  | row (line : Nat) (flaw : Flaw)
  deriving DecidableEq, Repr

def LoadError.message : LoadError → String
  | table e => s!"CSV parse error: {e.message}"
  | row line flaw => s!"line {line}: {flaw.message}"

def dateOf (fields : List String) : Except Flaw Date :=
  match fields[0]? with
  | none => .error (.missing "date")
  | some raw =>
    match Date.read (Text.trimChars raw.toList) with
    | .ok date => .ok date
    | .error fault => .error (.badDate raw fault)

-- A field of a row as a finite number. Blanks around it do not matter.
def numberOf (fields : List String) (column : Column) : Except Flaw Float :=
  match fields[column.index]? with
  | none => .error (.missing column.name)
  | some raw =>
    match Number.read (Text.trimChars raw.toList) with
    | .ok x => if x.isFinite then .ok x else .error (.notFinite column)
    | .error fault => .error (.badNumber column raw fault)

-- The fields of a row are judged from left to right.
def barOf (fields : List String) : Except Flaw Bar := do
  return {
    date := ← dateOf fields
    opening := ← numberOf fields .opening
    high := ← numberOf fields .high
    low := ← numberOf fields .low
    close := ← numberOf fields .close
    volume := ← numberOf fields .volume }

def barOfRecord : Except Table.Uneven Table.Row → Except LoadError Bar
  | .error e => .error (.table e)
  | .ok row =>
    match barOf row.fields with
    | .ok bar => .ok bar
    | .error flaw => .error (.row row.start.line flaw)

-- The bars of a table with a row of headings, in the order of their dates;
-- those of one day keep their order.
def load (content : String) : Except LoadError (List Bar) := do
  let bars ← (Table.records content).mapM barOfRecord
  return bars.mergeSort fun a b => a.date.isOrdered b.date

end Candle

end CandleScript
