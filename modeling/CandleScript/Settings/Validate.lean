import CandleScript.Number.Arithmetic
import CandleScript.Number.Read
import CandleScript.Run.Limits
import CandleScript.Settings.Sections
import CandleScript.Signal

namespace CandleScript

namespace Settings

-- What can be set.
inductive Key where
  | maxSeriesLength
  | maxOperations
  | maxExecutionMs
  | stopLossPct
  | takeProfitPct
  | level
  deriving DecidableEq, Repr

def Key.heading : Key → String
  | maxSeriesLength | maxOperations | maxExecutionMs => "limits"
  | stopLossPct | takeProfitPct => "strategy"
  | level => "logging"

def Key.name : Key → String
  | maxSeriesLength => "max_series_length"
  | maxOperations => "max_operations"
  | maxExecutionMs => "max_execution_ms"
  | stopLossPct => "stop_loss_pct"
  | takeProfitPct => "take_profit_pct"
  | level => "level"

inductive LogLevel where
  | trace
  | debug
  | info
  | warn
  | error
  deriving DecidableEq, Repr

def LogLevel.all : List LogLevel := [trace, debug, info, warn, error]

def LogLevel.name : LogLevel → String
  | trace => "trace"
  | debug => "debug"
  | info => "info"
  | warn => "warn"
  | error => "error"

inductive Fault where
  | notNumber (raw : String)
  | notPositive
  | notWhole
  | unknownLevel (text : String)
  deriving DecidableEq, Repr

-- A value that makes no sense.
structure Invalid where
  key : Key
  fault : Fault
  deriving DecidableEq, Repr

def LogLevel.choice : String := "|".intercalate (all.map name)

def Invalid.reason (e : Invalid) : String :=
  match e.fault with
  | .notNumber raw => s!"{e.key.name} must be a number, got '{raw}'"
  | .notPositive => s!"{e.key.name} must be positive"
  | .notWhole => s!"{e.key.name} must be a whole number"
  | .unknownLevel text =>
    s!"{e.key.name} must be one of {LogLevel.choice}, got '{text}'"

def Invalid.message (e : Invalid) : String :=
  s!"invalid config value [{e.key.heading}] {e.key.name}: {e.reason}"

-- Where the values come from: the text under a heading and a key, if any.
abbrev Lookup := (name key : String) → Option String

def Lookup.raw (lookup : Lookup) (key : Key) : Option String := lookup key.heading key.name

-- A value that is set has to be a positive finite number.
def positiveNumber (lookup : Lookup) (key : Key) (otherwise : Float) : Except Invalid Float :=
  match lookup.raw key with
  | none => .ok otherwise
  | some raw =>
    match Number.read (Text.trimChars raw.toList) with
    | .error _ => .error ⟨key, .notNumber raw⟩
    | .ok x => if !x.isFinite || x ≤ 0.0 then .error ⟨key, .notPositive⟩ else .ok x

def positiveCount (lookup : Lookup) (key : Key) (otherwise : Nat) : Except Invalid Nat := do
  let x ← positiveNumber lookup key (Number.ofCount otherwise)
  if Number.isWhole x then .ok (Number.toCount x) else .error ⟨key, .notWhole⟩

def limits (lookup : Lookup) : Except Invalid Limits := do
  return {
    maxSeriesLength := ← positiveCount lookup .maxSeriesLength Limits.standard.maxSeriesLength
    maxOperations := ← positiveCount lookup .maxOperations Limits.standard.maxOperations
    maxExecutionTime :=
      Limits.nanosPerMs *
        (← positiveCount lookup .maxExecutionMs Limits.standard.maxExecutionMs) }

def risk (lookup : Lookup) : Except Invalid Risk := do
  return {
    stopLossPct := ← positiveNumber lookup .stopLossPct Risk.standard.stopLossPct
    takeProfitPct := ← positiveNumber lookup .takeProfitPct Risk.standard.takeProfitPct }

-- Blanks around a level and its letter case do not matter.
def logLevel (lookup : Lookup) : Except Invalid (Option LogLevel) :=
  match lookup.raw .level with
  | none => .ok none
  | some raw =>
    let text := Text.lowercase (Text.trim raw)
    match LogLevel.all.find? fun level => level.name = text with
    | some level => .ok (some level)
    | none => .error ⟨.level, .unknownLevel text⟩

end Settings

end CandleScript
