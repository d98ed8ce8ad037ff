import CandleScript.Run.Execute

namespace CandleScript

-- All records of a run, in order.
structure Journal where
  plots : List Plot
  events : List Event
  deriving DecidableEq

-- Keeps everything.
def Channel.journal : Channel Journal :=
  ⟨fun p kept => { kept with plots := kept.plots ++ [p] },
    fun e kept => { kept with events := kept.events ++ [e] }⟩

-- Keeps plots and drops events.
def Channel.plots : Channel (List Plot) := ⟨fun p kept => kept ++ [p], fun _ kept => kept⟩

-- Keeps events and drops plots.
def Channel.events : Channel (List Event) := ⟨fun _ kept => kept, fun e kept => kept ++ [e]⟩

-- One run that keeps all records.
def runJournal (limits : Limits) (program : Ir.Program) (context : Context) :
    Timed (Outcome Journal) :=
  execute .journal limits program context ⟨[], []⟩

-- The engine for charts.
def runVisual (limits : Limits) (program : Ir.Program) (context : Context) :
    Timed (Outcome (List Plot)) :=
  execute .plots limits program context []

-- The engine for strategies. Both engines leave the same bindings behind.
def runStrategy (limits : Limits) (program : Ir.Program) (context : Context) :
    Timed (Outcome (List Event)) :=
  execute .events limits program context []

end CandleScript
