import CandleScript.Proofs.Run.Refusal
import CandleScript.Proofs.Run.Step
import CandleScript.Proofs.Run.Untimed

namespace CandleScript

variable {σ α β : Type}

-- What is known of the end of a step: of the machine behind a success, and of
-- the error behind a failure.
def Ends (success : α → Machine σ → Prop) (failure : RuntimeError → Prop) :
    EStateM.Result RuntimeError (Machine σ) α → Prop
  | .ok value next => success value next
  | .error e _ => failure e

theorem Ends.bind {success : α → Machine σ → Prop} {later : β → Machine σ → Prop}
    {failure : RuntimeError → Prop} {x : Step σ α} {f : α → Step σ β} {machine : Machine σ}
    (hx : Ends success failure (x machine))
    (hf : ∀ value next, success value next → Ends later failure (f value next)) :
    Ends later failure ((x >>= f) machine) := by
  cases hstep : x machine with
  | ok value next =>
      rw [hstep] at hx
      rw [bind_of_ok hstep]
      exact hf value next hx
  | error e next =>
      rw [hstep] at hx
      rw [bind_of_error hstep]
      exact hx

theorem Ends.mono {success success' : α → Machine σ → Prop} {failure failure' : RuntimeError → Prop}
    {result : EStateM.Result RuntimeError (Machine σ) α} (h : Ends success failure result)
    (hsuccess : ∀ value next, success value next → success' value next)
    (hfailure : ∀ e, failure e → failure' e) : Ends success' failure' result := by
  cases result with
  | ok value next => exact hsuccess value next h
  | error e next => exact hfailure e h

namespace Setting

variable {failure : RuntimeError → Prop}

theorem ends_tick (setting : Setting σ) (machine : Machine σ)
    (h : setting.limits.maxOperations < machine.operations + 1 →
      failure (.limitExceeded
        ⟨.operations, setting.limits.maxOperations, machine.operations + 1⟩)) :
    Ends (fun _ next => next = { machine with operations := machine.operations + 1 } ∧
      next.operations ≤ setting.limits.maxOperations) failure (setting.tick machine) := by
  by_cases hmany : setting.limits.maxOperations < machine.operations + 1
  · rw [setting.tick_of_lt hmany]
    exact h hmany
  · have hfew := Nat.not_lt.mp hmany
    rw [setting.tick_of_le hfew]
    exact ⟨rfl, hfew⟩

theorem ends_lookup (name : String) (machine : Machine σ)
    (h : machine.context.get? name = none → failure (.undefinedVariable name)) :
    Ends (fun value next => machine.context.get? name = some value ∧ next = machine) failure
      (lookup name machine) := by
  unfold lookup
  split
  · rename_i hfound
    exact ⟨hfound, rfl⟩
  · rename_i hmissing
    exact h hmissing

theorem ends_operate (op : Operator) (left right : Value) (machine : Machine σ)
    (h : ∀ e, op.Refusal e → failure e) :
    Ends (fun _ next => next = machine) failure (operate op left right machine) := by
  unfold operate
  split
  · rfl
  · rename_i happly
    exact h _ (Operator.refusal_of_apply happly)

-- A call leaves nothing behind but its record.
theorem ends_call (setting : Setting σ) (func : String) (values : List Value) (machine : Machine σ)
    (h : ∀ e, Call.Refusal func values.length e → failure e) :
    Ends (fun _ next => ∃ kept, next = { machine with kept }) failure
      (setting.call func values machine) := by
  unfold call
  split
  · exact ⟨_, rfl⟩
  · exact ⟨_, rfl⟩
  · rename_i hperform
    exact h _ (Call.refusal_of_perform hperform)

end Setting

end CandleScript
