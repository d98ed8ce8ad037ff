import CandleScript.Proofs.Run.Step

namespace CandleScript

variable {σ α β : Type}

-- What is known behind a step: of its value if it succeeds, and of the machine
-- however it ends.
def Stays (good : α → Prop) (P : Machine σ → Prop) :
    EStateM.Result RuntimeError (Machine σ) α → Prop
  | .ok value next => good value ∧ P next
  | .error _ next => P next

theorem Stays.bind {good : α → Prop} {later : β → Prop} {P : Machine σ → Prop} {x : Step σ α}
    {f : α → Step σ β} {machine : Machine σ} (hx : Stays good P (x machine))
    (hf : ∀ value next, good value → P next → Stays later P (f value next)) :
    Stays later P ((x >>= f) machine) := by
  cases hstep : x machine with
  | ok value next =>
      rw [hstep] at hx
      rw [bind_of_ok hstep]
      exact hf value next hx.1 hx.2
  | error e next =>
      rw [hstep] at hx
      rw [bind_of_error hstep]
      exact hx

-- Every bound value has `V`, and what is kept has `R`.
structure Machine.Holds (V : Value → Prop) (R : σ → Prop) (machine : Machine σ) : Prop where
  context : machine.context.Each V
  kept : R machine.kept

-- Values with `V` lead to no others, and the records of calls with such values
-- keep `R`.
structure Setting.Keeps (setting : Setting σ) (V : Value → Prop) (R : σ → Prop) : Prop where
  constant : ∀ c, V (.ofConstant c)
  operate : ∀ {op : Operator} {a b value : Value}, V a → V b → op.apply a b = .ok value → V value
  value : ∀ {func : String} {values : List Value} {result : Call.Result}, (∀ v ∈ values, V v) →
    Call.perform func values setting.length = .ok result → V result.1
  record : ∀ {func : String} {values : List Value} {value : Value} {record : Record} {kept : σ},
    (∀ v ∈ values, V v) → Call.perform func values setting.length = .ok (value, some record) →
    R kept → R (setting.channel.deliver record kept)

namespace Setting

variable {setting : Setting σ} {V : Value → Prop} {R : σ → Prop} {machine : Machine σ}

theorem stays_tick (setting : Setting σ) (h : machine.Holds V R) :
    Stays (fun _ => True) (Machine.Holds V R) (setting.tick machine) := by
  unfold tick
  simp only
  split
  · exact ⟨trivial, h.context, h.kept⟩
  · exact ⟨h.context, h.kept⟩

theorem stays_lookup (name : String) (h : machine.Holds V R) :
    Stays V (Machine.Holds V R) (lookup name machine) := by
  unfold lookup
  split
  · rename_i value hfound
    exact ⟨h.context name value hfound, h⟩
  · exact h

theorem stays_bind (name : String) {value : Value} (hvalue : V value) (h : machine.Holds V R) :
    Stays V (Machine.Holds V R) (Setting.bind name value machine) :=
  ⟨hvalue, h.context.set name hvalue, h.kept⟩

namespace Keeps

theorem stays_operate (hkeeps : setting.Keeps V R) (op : Operator) {a b : Value} (ha : V a)
    (hb : V b) (h : machine.Holds V R) :
    Stays V (Machine.Holds V R) (Setting.operate op a b machine) := by
  unfold Setting.operate
  split
  · rename_i value hvalue
    exact ⟨hkeeps.operate ha hb hvalue, h⟩
  · exact h

theorem stays_call (hkeeps : setting.Keeps V R) (func : String) {values : List Value}
    (hvalues : ∀ v ∈ values, V v) (h : machine.Holds V R) :
    Stays V (Machine.Holds V R) (setting.call func values machine) := by
  unfold Setting.call
  split
  · rename_i value hperform
    exact ⟨hkeeps.value hvalues hperform, h⟩
  · rename_i value record hperform
    exact ⟨hkeeps.value hvalues hperform, h.context, hkeeps.record hvalues hperform h.kept⟩
  · exact h

mutual

-- Induction on the tree: no node makes a value out of nothing but its constants
-- and what was there before.
theorem stays_eval (hkeeps : setting.Keeps V R) : ∀ (node : Ir.Node) (machine : Machine σ),
    machine.Holds V R → Stays V (Machine.Holds V R) (setting.eval node machine)
  | .const c => by
    intro machine h
    rw [eval]
    apply (setting.stays_tick h).bind
    intro _ next _ hnext
    exact ⟨hkeeps.constant c, hnext⟩
  | .var name => by
    intro machine h
    rw [eval]
    apply (setting.stays_tick h).bind
    intro _ next _ hnext
    exact stays_lookup name hnext
  | .assign name node => by
    intro machine h
    rw [eval]
    apply (setting.stays_tick h).bind
    intro _ next _ hnext
    apply (hkeeps.stays_eval node next hnext).bind
    intro value next hvalue hnext
    exact stays_bind name hvalue hnext
  | .binary op left right => by
    intro machine h
    rw [eval]
    apply (setting.stays_tick h).bind
    intro _ next _ hnext
    apply (hkeeps.stays_eval left next hnext).bind
    intro a next ha hnext
    apply (hkeeps.stays_eval right next hnext).bind
    intro b next hb hnext
    exact hkeeps.stays_operate op ha hb hnext
  | .call func args => by
    intro machine h
    simp only [eval]
    generalize Text.lowercase func = name
    apply (setting.stays_tick h).bind
    intro _ next _ hnext
    apply (hkeeps.stays_evalAll args next hnext).bind
    intro values next hvalues hnext
    exact hkeeps.stays_call name hvalues hnext

theorem stays_evalAll (hkeeps : setting.Keeps V R) : ∀ (nodes : List Ir.Node)
    (machine : Machine σ), machine.Holds V R →
    Stays (fun values => ∀ v ∈ values, V v) (Machine.Holds V R) (setting.evalAll nodes machine)
  | [] => by
    intro machine h
    exact ⟨List.forall_mem_nil _, h⟩
  | node :: rest => by
    intro machine h
    rw [evalAll]
    apply (hkeeps.stays_eval node machine h).bind
    intro value next hvalue hnext
    apply (hkeeps.stays_evalAll rest next hnext).bind
    intro values next hvalues hnext
    exact ⟨List.forall_mem_cons.mpr ⟨hvalue, hvalues⟩, hnext⟩

end

-- From statement to statement, wherever the run ends.
theorem holds_run (hkeeps : setting.Keeps V R) (clock : Nat → Nat) (begun count : Nat)
    (nodes : List Ir.Node) (machine : Machine σ) (h : machine.Holds V R) :
    let outcome := (setting.run begun nodes machine).resultFrom clock count
    outcome.context.Each V ∧ R outcome.kept := by
  induction nodes generalizing machine count with
  | nil => exact ⟨h.context, h.kept⟩
  | cons node rest ih =>
      have hstep := hkeeps.stays_eval node machine h
      rw [run]
      cases heval : setting.eval node machine with
      | error e next =>
          rw [heval] at hstep
          exact ⟨hstep.context, hstep.kept⟩
      | ok value next =>
          rw [heval] at hstep
          simp only [Timed.resultFrom]
          cases setting.limits.checkElapsed (clock count - begun) with
          | error e => exact ⟨hstep.2.context, hstep.2.kept⟩
          | ok _ => exact ih (count + 1) next hstep.2

end Keeps

end Setting

-- However a run ends, what its steps keep is kept.
theorem holds_execute_of_keeps {V : Value → Prop} {R : σ → Prop} (channel : Channel σ)
    (limits : Limits) (program : Ir.Program) {context : Context}
    (hkeeps : Setting.Keeps ⟨channel, limits, context.candleCount⟩ V R)
    (hcontext : context.Each V) {start : σ} (hstart : R start) (clock : Nat → Nat) :
    let outcome := (execute channel limits program context start).result clock
    outcome.context.Each V ∧ R outcome.kept := by
  simp only [execute, Timed.result, Timed.resultFrom]
  cases limits.checkInput context.candleCount with
  | error e => exact ⟨hcontext, hstart⟩
  | ok _ => exact hkeeps.holds_run clock _ _ _ _ ⟨hcontext, hstart⟩

end CandleScript
