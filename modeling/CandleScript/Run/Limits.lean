import CandleScript.Run.Error

namespace CandleScript

-- The ceilings of one run. The time is in nanoseconds.
structure Limits where
  maxSeriesLength : Nat
  maxOperations : Nat
  maxExecutionTime : Nat
  deriving DecidableEq, Repr

namespace Limits

def nanosPerMs : Nat := 1000000

def standard : Limits := ⟨100000, 1000000, 5000 * nanosPerMs⟩

-- The whole milliseconds of the time a run may take.
def maxExecutionMs (limits : Limits) : Nat := limits.maxExecutionTime / nanosPerMs

-- Refuses candle data that is too long. This comes before any statement.
def checkInput (limits : Limits) (length : Nat) : Except RuntimeError Unit :=
  if limits.maxSeriesLength < length then
    .error (.limitExceeded ⟨.seriesLength, limits.maxSeriesLength, length⟩)
  else .ok ()

def checkOperations (limits : Limits) (operations : Nat) : Except RuntimeError Unit :=
  if limits.maxOperations < operations then
    .error (.limitExceeded ⟨.operations, limits.maxOperations, operations⟩)
  else .ok ()

-- Judges the time since the start of the run, in nanoseconds. An error tells
-- both times in whole milliseconds.
def checkElapsed (limits : Limits) (elapsed : Nat) : Except RuntimeError Unit :=
  if limits.maxExecutionTime < elapsed then
    .error (.limitExceeded ⟨.executionTime, limits.maxExecutionMs, elapsed / nanosPerMs⟩)
  else .ok ()

end Limits

end CandleScript
