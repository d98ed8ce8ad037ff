import CandleScript.Run.Call
import CandleScript.Run.Context
import CandleScript.Run.Limits
import CandleScript.Run.Operation
import CandleScript.Run.Timed

namespace CandleScript

-- Where the records of a run go. A channel keeps what it cares about.
structure Channel (σ : Type) where
  plot : Plot → σ → σ
  event : Event → σ → σ

def Channel.deliver {σ : Type} (channel : Channel σ) : Record → σ → σ
  | .plot p => channel.plot p
  | .event e => channel.event e

-- What a run works on. It is left as it is when the run fails.
structure Machine (σ : Type) where
  context : Context
  kept : σ
  operations : Nat

-- What does not change during a run: where records go, the limits, and the
-- number of candles at its start.
structure Setting (σ : Type) where
  channel : Channel σ
  limits : Limits
  length : Nat

abbrev Step (σ α : Type) := EStateM RuntimeError (Machine σ) α

namespace Setting

variable {σ : Type}

-- Every node counts as one operation before anything else happens.
def tick (setting : Setting σ) : Step σ Unit := fun machine =>
  let machine := { machine with operations := machine.operations + 1 }
  match setting.limits.checkOperations machine.operations with
  | .ok () => .ok () machine
  | .error e => .error e machine

def lookup (name : String) : Step σ Value := fun machine =>
  match machine.context.get? name with
  | some value => .ok value machine
  | none => .error (.undefinedVariable name) machine

def bind (name : String) (value : Value) : Step σ Value := fun machine =>
  .ok value { machine with context := machine.context.set name value }

def operate (op : Operator) (left right : Value) : Step σ Value := fun machine =>
  match op.apply left right with
  | .ok value => .ok value machine
  | .error e => .error e machine

def call (setting : Setting σ) (func : String) (values : List Value) : Step σ Value := fun machine =>
  match Call.perform func values setting.length with
  | .ok (value, none) => .ok value machine
  | .ok (value, some record) =>
    .ok value { machine with kept := setting.channel.deliver record machine.kept }
  | .error e => .error e machine

mutual

-- The value of a node. Operands and arguments are evaluated from left to
-- right, and an assignment has the value it assigns.
def eval (setting : Setting σ) : Ir.Node → Step σ Value
  | .const value => do
    setting.tick
    return .ofConstant value
  | .var name => do
    setting.tick
    lookup name
  | .assign name value => do
    setting.tick
    let value ← setting.eval value
    bind name value
  | .binary op left right => do
    setting.tick
    let left ← setting.eval left
    let right ← setting.eval right
    operate op left right
  | .call func args => do
    setting.tick
    let values ← setting.evalAll args
    setting.call (Text.lowercase func) values

def evalAll (setting : Setting σ) : List Ir.Node → Step σ (List Value)
  | [] => return []
  | node :: rest => do
    let value ← setting.eval node
    let values ← setting.evalAll rest
    return value :: values

end

end Setting

-- What a run leaves behind: its number of operations or the error that ended
-- it, the context, and what the channel kept.
structure Outcome (σ : Type) where
  result : Except RuntimeError Nat
  context : Context
  kept : σ

def Machine.outcome {σ : Type} (machine : Machine σ) (result : Except RuntimeError Nat) : Outcome σ :=
  ⟨result, machine.context, machine.kept⟩

-- Statements in their order, with a look at the clock after each one. The run
-- began when the clock showed `begun`.
def Setting.run {σ : Type} (setting : Setting σ) (begun : Nat) :
    List Ir.Node → Machine σ → Timed (Outcome σ)
  | [], machine => .done (machine.outcome (.ok machine.operations))
  | node :: rest, machine =>
    match setting.eval node machine with
    | .error e machine => .done (machine.outcome (.error e))
    | .ok _ machine => .reading fun now =>
      match setting.limits.checkElapsed (now - begun) with
      | .error e => .done (machine.outcome (.error e))
      | .ok () => setting.run begun rest machine

-- Runs a program on a context. Candle data that is too long is refused before
-- anything happens.
def execute {σ : Type} (channel : Channel σ) (limits : Limits) (program : Ir.Program)
    (context : Context) (start : σ) : Timed (Outcome σ) :=
  .reading fun begun =>
    let length := context.candleCount
    match limits.checkInput length with
    | .error e => .done ⟨.error e, context, start⟩
    | .ok () =>
      let setting : Setting σ := { channel, limits, length }
      setting.run begun program.statements ⟨context, start, 0⟩

end CandleScript
