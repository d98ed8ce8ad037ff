import CandleScript.Proofs.Parallel.Lookahead
import CandleScript.Proofs.Run.Delivery
import CandleScript.Proofs.Run.Invariant

namespace CandleScript

variable {α β : Type} {n : Nat}

-- A series has one value for each of the `n` candles.
def Value.PerCandle (n : Nat) (value : Value) : Prop :=
  ∀ length, value.seriesLength? = some length → length = n

def Record.PerCandle (n : Nat) : Record → Prop
  | .plot p => p.values.seriesLength? = some n
  | .event e => e.condition.length = n

namespace Value

theorem perCandle_ofConstant (n : Nat) (c : Ir.Constant) : (ofConstant c).PerCandle n := by
  cases c <;> rintro length ⟨⟩

-- Cut at its own length a value is what it was, so that it goes together with
-- itself where nothing is cut.
theorem PerCandle.paired {value : Value} (h : value.PerCandle n) :
    Paired (.cut (Nat.le_refl n)) value value := by
  have hpaired := paired_cut (Nat.le_refl n) h
  have hcut : value.cut n = value := by
    cases value with
    | series values => exact congrArg series (List.take_of_length_le (Nat.le_of_eq (h _ rfl)))
    | boolSeries values => exact congrArg boolSeries (List.take_of_length_le (Nat.le_of_eq (h _ rfl)))
    | number _ | bool _ | text _ => rfl
  rwa [hcut] at hpaired

theorem Paired.perCandle {v w : Value} (h : Paired (.cut (Nat.le_refl n)) v w) :
    v.PerCandle n := by
  cases h with
  | number _ | bool _ | text _ => rintro length ⟨⟩
  | series h | boolSeries h =>
      rintro length ⟨⟩
      exact h.1

theorem PerCandle.seriesLength? {value : Value} (h : value.PerCandle n)
    (hseries : value.isSeries = true) : value.seriesLength? = some n := by
  cases value with
  | series values | boolSeries values => exact congrArg some (h _ rfl)
  | number _ | bool _ | text _ => cases hseries

end Value

theorem Agree.of_ok {ε : Type} {together : α → β → Prop} {x : α} {y : β}
    (h : Agree (ε := ε) together (.ok x) (.ok y)) : together x y := by
  cases h with
  | ok h => exact h

theorem Operator.perCandle_apply {op : Operator} {a b value : Value} (ha : a.PerCandle n)
    (hb : b.PerCandle n) (h : op.apply a b = .ok value) : value.PerCandle n := by
  have hagree := op.agree_apply ha.paired hb.paired
  rw [h] at hagree
  exact hagree.of_ok.perCandle

namespace Call

-- What is known of the result of a computation that succeeds.
def Returns (P : α → Prop) (x : Except RuntimeError α) : Prop := ∀ value, x = .ok value → P value

theorem returns_ok {P : α → Prop} {value : α} (h : P value) : Returns P (.ok value) := by
  rintro _ ⟨⟩
  exact h

theorem returns_error {P : α → Prop} (e : RuntimeError) : Returns P (.error e) := by
  rintro _ ⟨⟩

theorem Returns.bind {P : α → Prop} {Q : β → Prop} {x : Except RuntimeError α}
    {f : α → Except RuntimeError β} (hx : Returns P x) (hf : ∀ value, P value → Returns Q (f value)) :
    Returns Q (x >>= f) := by
  cases x with
  | error e => exact returns_error e
  | ok value => exact hf value (hx value rfl)

theorem returns_bind {Q : β → Prop} {x : Except RuntimeError α} {f : α → Except RuntimeError β}
    (hf : ∀ value, Returns Q (f value)) : Returns Q (x >>= f) :=
  Returns.bind (P := fun _ => True) (fun _ _ => trivial) fun value _ => hf value

-- What is drawn is a series.
def Draws (result : Result) : Prop :=
  ∀ plot, result.2 = some (.plot plot) → plot.values.isSeries = true

theorem draws_plain (value : Value) : Draws (plain value) := by
  rintro plot ⟨⟩

theorem draws_event (value : Value) (event : Event) : Draws (value, some (.event event)) := by
  rintro plot ⟨⟩

theorem draws_bools (value : Value) (title color : String) (style : PlotStyle)
    (values : List Bool) : Draws (value, some (.plot ⟨title, color, style, .boolSeries values⟩)) := by
  rintro plot ⟨⟩
  rfl

theorem isSeries_plotted (call : Call) :
    Returns (fun value => value.isSeries = true) call.plotted := by
  apply returns_bind
  intro value
  split
  · exact returns_ok rfl
  · exact returns_bind fun _ => returns_ok rfl
  · exact returns_error _

theorem draws_plot (call : Call) : Returns Draws call.plot := by
  refine call.isSeries_plotted.bind fun values hvalues => ?_
  refine returns_bind fun title => returns_bind fun color => returns_bind fun first => ?_
  refine returns_ok ?_
  rintro plot ⟨⟩
  exact hvalues

theorem draws_apply (call : Call) : Returns Draws call.apply := by
  unfold apply
  cases call.function with
  | sma | ema | rsi | obv | crossover | crossunder =>
      exact returns_bind fun _ => returns_bind fun _ => returns_ok (draws_plain _)
  | macd | macdSignal | macdHist | bbUpper | bbLower | stochK | stochD =>
      exact returns_bind fun _ => returns_ok (draws_plain _)
  | vwap | cci =>
      exact returns_bind fun _ => returns_bind fun _ => returns_bind fun _ =>
        returns_bind fun _ => returns_ok (draws_plain _)
  | supertrend | mfi =>
      exact returns_bind fun _ => returns_bind fun _ => returns_bind fun _ =>
        returns_bind fun _ => returns_bind fun _ => returns_ok (draws_plain _)
  | plot => exact call.draws_plot
  | plotshape =>
      exact returns_bind fun _ => returns_bind fun _ => returns_bind fun _ =>
        returns_bind fun _ => returns_ok (draws_bools _ _ _ _ _)
  | bgcolor =>
      exact returns_bind fun _ => returns_bind fun _ => returns_bind fun _ =>
        returns_ok (draws_bools _ _ _ _ _)
  | strategyEntry =>
      exact returns_bind fun _ => returns_bind fun _ => returns_bind fun _ =>
        returns_bind fun _ => returns_bind fun _ => returns_ok (draws_event _ _)
  | strategyClose =>
      exact returns_bind fun _ => returns_bind fun _ => returns_ok (draws_event _ _)

theorem draws_perform (func : String) (values : List Value) (length : Nat) :
    Returns Draws (perform func values length) := by
  unfold perform
  split
  · exact returns_error _
  · split
    · exact draws_apply _
    · exact returns_error _

theorem paired_perform {func : String} {values : List Value} {result : Result}
    (hvalues : ∀ v ∈ values, v.PerCandle n) (h : perform func values n = .ok result) :
    Result.Paired (.cut (Nat.le_refl n)) result result := by
  have hsame := List.forall₂_same.mpr fun v hv => (hvalues v hv).paired
  have hagree := agree_perform func hsame ⟨rfl, rfl⟩
  rw [h] at hagree
  exact hagree.of_ok

end Call

-- A record that goes together with itself has full series.
theorem Record.Paired.perCandle {record : Record}
    (h : Record.Paired (.cut (Nat.le_refl n)) record record)
    (hdraws : ∀ plot, record = .plot plot → plot.values.isSeries = true) : record.PerCandle n := by
  cases h with
  | plot title color style h => exact h.perCandle.seriesLength? (hdraws _ rfl)
  | entry _ _ _ _ h | close _ h => exact h.1

-- All steps of a run keep to the number of candles at its start.
theorem Setting.keeps_perCandle (limits : Limits) (n : Nat) :
    Setting.Keeps ⟨.records, limits, n⟩ (Value.PerCandle n)
      (fun kept => ∀ record ∈ kept, record.PerCandle n) where
  constant := Value.perCandle_ofConstant n
  operate := Operator.perCandle_apply
  value := fun hvalues hperform => (Call.paired_perform hvalues hperform).value.perCandle
  record := by
    intro func values value record kept hvalues hperform hkept
    have hdraws := Call.draws_perform func values n _ hperform
    obtain ⟨-, hrecord⟩ := Call.paired_perform hvalues hperform
    cases hrecord with
    | some hrecord =>
        have hfull := hrecord.perCandle fun plot hplot => hdraws plot (congrArg some hplot)
        rw [Channel.records_deliver, List.forall_mem_append, List.forall_mem_singleton]
        exact ⟨hkept, hfull⟩

-- One value per candle, always. However a run ends, every series that a name is
-- bound to has as many values as there were candles at the start of the run,
-- and so have the records that were handed to the channel.
theorem execute_perCandle {σ : Type} (channel : Channel σ) (limits : Limits)
    (program : Ir.Program) (context : Context) (haligned : context.Aligned) (start : σ)
    (clock : Nat → Nat) :
    let outcome := (execute channel limits program context start).result clock
    let delivered := ((execute .records limits program context []).result clock).kept
    (∀ name value, outcome.context.get? name = some value →
      value.PerCandle context.candleCount) ∧
      outcome.kept = channel.deliverAll delivered start ∧
      ∀ record ∈ delivered, record.PerCandle context.candleCount := by
  intro outcome delivered
  have houtcome : outcome = _ :=
    result_execute_records channel limits program context start clock
  obtain ⟨hcontext, hdelivered⟩ := holds_execute_of_keeps .records limits program
    (Setting.keeps_perCandle limits context.candleCount) haligned (List.forall_mem_nil _) clock
  rw [houtcome]
  exact ⟨hcontext, rfl, hdelivered⟩

-- Hides the close behind a number, draws where the open crosses it, and fails.
def hiddenCloseProgram : Ir.Program :=
  ⟨[.assign "close" (.const (.number 5.0)),
    .call "plot" [.call "crossover" [.var "open", .var "close"]], .var "missing"]⟩

theorem execute_perCandle_hiddenClose :
    let context := Context.ofBars (flatBars [4.0, 6.0])
    let outcome := (execute .records .standard hiddenCloseProgram context []).result fun _ => 0
    outcome.result = .error (.undefinedVariable "missing") ∧ outcome.context.candleCount = 0 ∧
      (∀ name value, outcome.context.get? name = some value → value.PerCandle 2) ∧
      outcome.kept = [.plot ⟨"Plot", "#2962FF", .line, .series [some 0.0, some 1.0]⟩] ∧
      ∀ record ∈ outcome.kept, record.PerCandle 2 := by
  intro context outcome
  obtain ⟨hcontext, -, hdelivered⟩ := execute_perCandle .records .standard hiddenCloseProgram
    context (Context.aligned_ofBars _) [] fun _ => 0
  exact ⟨rfl, rfl, hcontext, rfl, hdelivered⟩

end CandleScript
