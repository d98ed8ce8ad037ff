import CandleScript.Proofs.Parallel.PerCandle

namespace CandleScript

-- Whether calls of a function leave a record behind.
def Builtin.isSink (b : Builtin) : Bool := b.group != .indicator

-- The function whose calls leave such records behind.
def PlotStyle.maker : PlotStyle → Builtin
  | line => .plot
  | shape => .plotshape
  | background => .bgcolor

def Event.maker : Event → Builtin
  | entry _ => .strategyEntry
  | close _ => .strategyClose

@[simp] theorem PlotStyle.group_maker (style : PlotStyle) : style.maker.group = .visual := by
  cases style <;> rfl

@[simp] theorem Event.group_maker (event : Event) : event.maker.group = .strategy := by
  cases event <;> rfl

def Record.maker : Record → Builtin
  | plot p => p.style.maker
  | event e => e.maker

theorem Record.isSink_of_maker_eq {record : Record} {function : Builtin}
    (h : record.maker = function) : function.isSink = true := by
  rw [← h]
  cases record <;> simp [maker, Builtin.isSink]

namespace Call

-- What a call leaves behind once it succeeds: a record of its own function, and
-- only where that function is a sink.
def LeavesRecord (function : Builtin) (result : Result) : Prop :=
  result.2.map Record.maker = if function.isSink then some function else none

theorem leavesRecord_apply (call : Call) : Returns (LeavesRecord call.function) call.apply := by
  unfold apply
  cases call.function with
  | sma | ema | rsi | obv | crossover | crossunder | strategyClose =>
      exact returns_bind fun _ => returns_bind fun _ => returns_ok rfl
  | macd | macdSignal | macdHist | bbUpper | bbLower | stochK | stochD =>
      exact returns_bind fun _ => returns_ok rfl
  | vwap | cci | plot | plotshape =>
      exact returns_bind fun _ => returns_bind fun _ => returns_bind fun _ =>
        returns_bind fun _ => returns_ok rfl
  | supertrend | mfi | strategyEntry =>
      exact returns_bind fun _ => returns_bind fun _ => returns_bind fun _ =>
        returns_bind fun _ => returns_bind fun _ => returns_ok rfl
  | bgcolor =>
      exact returns_bind fun _ => returns_bind fun _ => returns_bind fun _ => returns_ok rfl

theorem exists_of_perform {func : String} {values : List Value} {length : Nat} {result : Result}
    (h : perform func values length = .ok result) :
    ∃ function, Builtin.lookup? func = some function ∧ function.accepts values.length = true ∧
      Call.apply ⟨function, values, length⟩ = .ok result := by
  unfold perform at h
  split at h
  · cases h
  · rename_i function hfunction
    split at h
    · rename_i haccepts
      exact ⟨function, hfunction, haccepts, h⟩
    · cases h

theorem leavesRecord_perform {func : String} {values : List Value} {length : Nat} {result : Result}
    (h : perform func values length = .ok result) :
    ∃ function, Builtin.lookup? func = some function ∧ LeavesRecord function result := by
  obtain ⟨function, hfunction, -, happly⟩ := exists_of_perform h
  exact ⟨function, hfunction, leavesRecord_apply _ result happly⟩

theorem LeavesRecord.maker_eq {function : Builtin} {result : Result} {record : Record}
    (h : LeavesRecord function result) (hrecord : result.2 = some record) :
    record.maker = function := by
  rw [LeavesRecord, hrecord, Option.map_some] at h
  split at h
  · exact Option.some.inj h
  · cases h

theorem LeavesRecord.isSink_eq_false {function : Builtin} {result : Result}
    (h : LeavesRecord function result) (hnone : result.2 = none) : function.isSink = false := by
  rw [LeavesRecord, hnone, Option.map_none] at h
  split at h
  · cases h
  · rename_i hsink
    exact Bool.eq_false_iff.mpr hsink

end Call

-- A call of a function that leaves a record behind.
structure Sink where
  function : Builtin
  args : List Ir.Node

namespace Ir.Node

-- The call itself, if it is one of a sink. Names are read in any letter case.
def ownSink (func : String) (args : List Node) : List Sink :=
  match Builtin.lookup? (Text.lowercase func) with
  | some function => if function.isSink then [⟨function, args⟩] else []
  | none => []

mutual

-- The sink calls of a tree: those of operands and arguments from left to right,
-- then the call itself.
def sinks : Node → List Sink
  | assign _ value => value.sinks
  | binary _ left right => left.sinks ++ right.sinks
  | call func args => sinksAll args ++ ownSink func args
  | var _ | const _ => []

def sinksAll : List Node → List Sink
  | [] => []
  | node :: rest => node.sinks ++ sinksAll rest

end

end Ir.Node

-- The plots and the events among records, each in their order.
def Journal.ofRecords (records : List Record) : Journal where
  plots := records.filterMap fun
    | .plot p => some p
    | .event _ => none
  events := records.filterMap fun
    | .plot _ => none
    | .event e => some e

theorem Channel.records_shows_journal :
    Channel.records.Shows Journal.ofRecords Channel.journal := by
  intro record kept
  rw [records_deliver]
  cases record with
  | plot p => simp [Journal.ofRecords, deliver, journal]
  | event e => simp [Journal.ofRecords, deliver, journal]

theorem Journal.maker_plots (records : List Record) :
    (ofRecords records).plots.map (·.style.maker) =
      (records.map Record.maker).filter (·.group = .visual) := by
  induction records with
  | nil => rfl
  | cons record rest ih =>
      simp only [ofRecords] at ih
      cases record <;> simp [ofRecords, Record.maker, ih]

theorem Journal.maker_events (records : List Record) :
    (ofRecords records).events.map Event.maker =
      (records.map Record.maker).filter (·.group = .strategy) := by
  induction records with
  | nil => rfl
  | cons record rest ih =>
      simp only [ofRecords] at ih
      cases record <;> simp [ofRecords, Record.maker, ih]

end CandleScript
