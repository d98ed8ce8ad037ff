import CandleScript.Proofs.Parallel.Calls
import CandleScript.Proofs.Run.Step
import CandleScript.Proofs.Run.Untimed

namespace CandleScript

variable {α α' β β' σ τ : Type} {p : Pairing} {K : σ → τ → Prop}

-- The same names are bound, and to paired values.
def Context.Paired (p : Pairing) (context context' : Context) : Prop :=
  ∀ name, Option.Rel (Value.Paired p) (context.get? name) (context'.get? name)

theorem Context.Paired.set {context context' : Context} (h : Context.Paired p context context')
    (name : String) {v w : Value} (hvalue : Value.Paired p v w) :
    Context.Paired p (context.set name v) (context'.set name w) := by
  intro other
  rw [Bindings.get?_set, Bindings.get?_set]
  split
  · exact .some hvalue
  · exact h other

-- Two channels that keep what goes together, given paired records.
def Channel.Paired (p : Pairing) (K : σ → τ → Prop) (channel : Channel σ)
    (channel' : Channel τ) : Prop :=
  ∀ record record' kept kept', Record.Paired p record record' → K kept kept' →
    K (channel.deliver record kept) (channel'.deliver record' kept')

-- Settings of two runs under the same limits.
structure Setting.Paired (p : Pairing) (K : σ → τ → Prop) (setting : Setting σ)
    (setting' : Setting τ) : Prop where
  channel : setting.channel.Paired p K setting'.channel
  limits : setting.limits = setting'.limits
  length : p.counts setting.length setting'.length

-- Machines of two runs at the same place.
structure Machine.Paired (p : Pairing) (K : σ → τ → Prop) (machine : Machine σ)
    (machine' : Machine τ) : Prop where
  context : machine.context.Paired p machine'.context
  kept : K machine.kept machine'.kept
  operations : machine.operations = machine'.operations

-- Two runs go through a step alike.
inductive Alongside (p : Pairing) (K : σ → τ → Prop) (together : α → β → Prop) :
    EStateM.Result RuntimeError (Machine σ) α → EStateM.Result RuntimeError (Machine τ) β →
    Prop where
  | ok {x : α} {y : β} {next : Machine σ} {next' : Machine τ} (h : together x y)
    (hnext : next.Paired p K next') : Alongside p K together (.ok x next) (.ok y next')
  | error (e : RuntimeError) {next : Machine σ} {next' : Machine τ}
    (hnext : next.Paired p K next') : Alongside p K together (.error e next) (.error e next')

theorem Alongside.bind {together : α → α' → Prop} {later : β → β' → Prop} {x : Step σ α}
    {x' : Step τ α'} {f : α → Step σ β} {f' : α' → Step τ β'} {machine : Machine σ}
    {machine' : Machine τ} (hx : Alongside p K together (x machine) (x' machine'))
    (hf : ∀ a a' next next', together a a' → next.Paired p K next' →
      Alongside p K later (f a next) (f' a' next')) :
    Alongside p K later ((x >>= f) machine) ((x' >>= f') machine') := by
  cases hstep : x machine with
  | ok a next =>
      cases hstep' : x' machine' with
      | ok a' next' =>
          rw [hstep, hstep'] at hx
          obtain ⟨hvalue, hnext⟩ := hx
          rw [bind_of_ok hstep, bind_of_ok hstep']
          exact hf a a' next next' hvalue hnext
      | error e next' =>
          rw [hstep, hstep'] at hx
          cases hx
  | error e next =>
      cases hstep' : x' machine' with
      | ok a' next' =>
          rw [hstep, hstep'] at hx
          cases hx
      | error e' next' =>
          rw [hstep, hstep'] at hx
          cases hx with
          | error _ hnext =>
              rw [bind_of_error hstep, bind_of_error hstep']
              exact .error e hnext

namespace Setting

variable {setting : Setting σ} {setting' : Setting τ} {machine : Machine σ} {machine' : Machine τ}

namespace Paired

theorem tick (h : setting.Paired p K setting') (hm : machine.Paired p K machine') :
    Alongside p K Eq (setting.tick machine) (setting'.tick machine') := by
  have hnext (count : Nat) : Machine.Paired p K { machine with operations := count }
      { machine' with operations := count } :=
    ⟨hm.context, hm.kept, rfl⟩
  unfold Setting.tick
  simp only [h.limits, hm.operations]
  cases setting'.limits.checkOperations (machine'.operations + 1) with
  | ok _ => exact .ok rfl (hnext _)
  | error e => exact .error e (hnext _)

theorem lookup (name : String) (hm : machine.Paired p K machine') :
    Alongside p K (Value.Paired p) (Setting.lookup name machine)
      (Setting.lookup name machine') := by
  unfold Setting.lookup
  rcases absent_or_present (hm.context name) with ⟨hv, hw⟩ | ⟨v, w, hv, hw, hvalue⟩
  · simp only [hv, hw]
    exact .error _ hm
  · simp only [hv, hw]
    exact .ok hvalue hm

theorem assign (name : String) {v w : Value} (hvalue : Value.Paired p v w)
    (hm : machine.Paired p K machine') :
    Alongside p K (Value.Paired p) (Setting.bind name v machine) (Setting.bind name w machine') :=
  .ok hvalue ⟨hm.context.set name hvalue, hm.kept, hm.operations⟩

theorem operate (op : Operator) {left left' right right' : Value}
    (hl : Value.Paired p left left') (hr : Value.Paired p right right')
    (hm : machine.Paired p K machine') :
    Alongside p K (Value.Paired p) (Setting.operate op left right machine)
      (Setting.operate op left' right' machine') := by
  have hresult := op.agree_apply hl hr
  unfold Setting.operate
  revert hresult
  generalize op.apply left right = result, op.apply left' right' = result'
  rintro (e | hvalue)
  · exact .error e hm
  · exact .ok hvalue hm

theorem call (h : setting.Paired p K setting') (func : String) {values values' : List Value}
    (hvalues : List.Forall₂ (Value.Paired p) values values') (hm : machine.Paired p K machine') :
    Alongside p K (Value.Paired p) (setting.call func values machine)
      (setting'.call func values' machine') := by
  have hresult := Call.agree_perform func hvalues h.length
  unfold Setting.call
  revert hresult
  generalize Call.perform func values setting.length = result
  generalize Call.perform func values' setting'.length = result'
  rintro (e | @⟨⟨v, record⟩, ⟨w, record'⟩, hvalue, hrecord⟩)
  · exact .error e hm
  · cases hrecord with
    | none => exact .ok hvalue hm
    | some hrecord =>
        exact .ok hvalue ⟨hm.context, h.channel _ _ _ _ hrecord hm.kept, hm.operations⟩

mutual

-- Induction on the node: each kind does one step that keeps the pairing.
theorem eval (h : setting.Paired p K setting') :
    ∀ (node : Ir.Node) (machine : Machine σ) (machine' : Machine τ), machine.Paired p K machine' →
    Alongside p K (Value.Paired p) (setting.eval node machine) (setting'.eval node machine')
  | .const c, machine, machine', hm => by
    simp only [Setting.eval]
    apply (h.tick hm).bind
    intro _ _ next next' _ hnext
    exact .ok (Value.paired_ofConstant p c) hnext
  | .var name, machine, machine', hm => by
    simp only [Setting.eval]
    apply (h.tick hm).bind
    intro _ _ next next' _ hnext
    exact lookup name hnext
  | .assign name node, machine, machine', hm => by
    simp only [Setting.eval]
    apply (h.tick hm).bind
    intro _ _ next next' _ hnext
    apply (h.eval node next next' hnext).bind
    intro v w next next' hvalue hnext
    exact assign name hvalue hnext
  | .binary op left right, machine, machine', hm => by
    simp only [Setting.eval]
    apply (h.tick hm).bind
    intro _ _ next next' _ hnext
    apply (h.eval left next next' hnext).bind
    intro v w next next' hleft hnext
    apply (h.eval right next next' hnext).bind
    intro v w next next' hright hnext
    exact operate op hleft hright hnext
  | .call func args, machine, machine', hm => by
    simp only [Setting.eval]
    generalize Text.lowercase func = name
    apply (h.tick hm).bind
    intro _ _ next next' _ hnext
    apply (h.evalAll args next next' hnext).bind
    intro values values' next next' hvalues hnext
    exact h.call name hvalues hnext

theorem evalAll (h : setting.Paired p K setting') :
    ∀ (nodes : List Ir.Node) (machine : Machine σ) (machine' : Machine τ),
    machine.Paired p K machine' →
    Alongside p K (List.Forall₂ (Value.Paired p)) (setting.evalAll nodes machine)
      (setting'.evalAll nodes machine')
  | [], machine, machine', hm => .ok .nil hm
  | node :: rest, machine, machine', hm => by
    simp only [Setting.evalAll]
    apply (h.eval node machine machine' hm).bind
    intro v w next next' hvalue hnext
    apply (h.evalAll rest next next' hnext).bind
    intro values values' next next' hvalues hnext
    exact .ok (.cons hvalue hvalues) hnext

end

end Paired

end Setting

-- Outcomes of runs that went alongside each other.
structure Outcome.Paired (p : Pairing) (K : σ → τ → Prop) (outcome : Outcome σ)
    (outcome' : Outcome τ) : Prop where
  result : outcome.result = outcome'.result
  context : outcome.context.Paired p outcome'.context
  kept : K outcome.kept outcome'.kept

theorem Machine.Paired.outcome {machine : Machine σ} {machine' : Machine τ}
    (h : machine.Paired p K machine') (result : Except RuntimeError Nat) :
    (machine.outcome result).Paired p K (machine'.outcome result) :=
  ⟨rfl, h.context, h.kept⟩

theorem Setting.Paired.walk {setting : Setting σ} {setting' : Setting τ}
    (h : setting.Paired p K setting') (nodes : List Ir.Node) (machine : Machine σ)
    (machine' : Machine τ) (hm : machine.Paired p K machine') :
    (setting.walk nodes machine).Paired p K (setting'.walk nodes machine') := by
  induction nodes generalizing machine machine' with
  | nil =>
      simp only [Setting.walk, hm.operations]
      exact hm.outcome _
  | cons node rest ih =>
      have hnode := h.eval node machine machine' hm
      simp only [Setting.walk]
      revert hnode
      generalize setting.eval node machine = step, setting'.eval node machine' = step'
      rintro (@⟨_, _, next, next', _, hnext⟩ | ⟨e, hnext⟩)
      · exact ih next next' hnext
      · exact hnext.outcome _

-- Runs on paired contexts have paired outcomes, whatever the clocks show, as
-- long as no candle data is refused and no clock stops a run.
theorem execute_paired {channel : Channel σ} {channel' : Channel τ}
    (hchannel : channel.Paired p K channel') (limits : Limits) (program : Ir.Program)
    {context context' : Context} (hcontext : context.Paired p context')
    (hlength : p.counts context.candleCount context'.candleCount) {start : σ} {start' : τ}
    (hstart : K start start') (hcount : context.candleCount ≤ limits.maxSeriesLength)
    (hcount' : context'.candleCount ≤ limits.maxSeriesLength) (clock clock' : Nat → Nat)
    (htime : ((execute channel limits program context start).result clock).endsOn .executionTime =
      false)
    (htime' : ((execute channel' limits program context' start').result clock').endsOn
      .executionTime = false) :
    ((execute channel limits program context start).result clock).Paired p K
      ((execute channel' limits program context' start').result clock') := by
  rw [result_execute _ _ _ _ _ _ htime, result_execute _ _ _ _ _ _ htime',
    executeUntimed_of_le _ _ _ _ _ hcount, executeUntimed_of_le _ _ _ _ _ hcount']
  have hsetting : Setting.Paired p K ⟨channel, limits, context.candleCount⟩
      ⟨channel', limits, context'.candleCount⟩ := ⟨hchannel, rfl, hlength⟩
  exact hsetting.walk _ _ _ ⟨hcontext, hstart, rfl⟩

-- Keeps all records of a run, plots and events alike, in their order.
def Channel.records : Channel (List Record) :=
  ⟨fun plot kept => kept ++ [.plot plot], fun event kept => kept ++ [.event event]⟩

theorem Channel.records_deliver (record : Record) (kept : List Record) :
    Channel.records.deliver record kept = kept ++ [record] := by
  cases record <;> rfl

theorem Channel.paired_records (p : Pairing) :
    Channel.records.Paired p (List.Forall₂ (Record.Paired p)) Channel.records := by
  intro record record' kept kept' hrecord hkept
  rw [records_deliver, records_deliver]
  exact List.rel_append hkept (.cons hrecord .nil)

end CandleScript
