import CandleScript.Proofs.Parallel.Runs
import CandleScript.Proofs.Run.Parity

namespace CandleScript

variable {σ : Type}

-- Hands records over one after the other.
def Channel.deliverAll (channel : Channel σ) (records : List Record) (kept : σ) : σ :=
  records.foldl (fun kept record => channel.deliver record kept) kept

theorem Channel.deliverAll_append (channel : Channel σ) (records later : List Record) (kept : σ) :
    channel.deliverAll (records ++ later) kept =
      channel.deliverAll later (channel.deliverAll records kept) :=
  List.foldl_append

theorem Channel.records_shows (channel : Channel σ) (start : σ) :
    Channel.records.Shows (channel.deliverAll · start) channel := by
  intro record kept
  simp only [records_deliver, deliverAll, List.foldl_append, List.foldl_cons, List.foldl_nil]

-- Every channel is handed what a channel that keeps everything keeps, and the
-- run makes no difference between them.
theorem result_execute_records (channel : Channel σ) (limits : Limits) (program : Ir.Program)
    (context : Context) (start : σ) (clock : Nat → Nat) :
    (execute channel limits program context start).result clock =
      ((execute .records limits program context []).result clock).map
        (channel.deliverAll · start) :=
  result_execute_map (channel.records_shows start) limits program context [] clock

end CandleScript
