import CandleScript.Proofs.Run.Step

namespace CandleScript

variable {σ α β : Type}

namespace Ir.Node

mutual

-- The names that a tree assigns, in the order of evaluation.
def assigned : Node → List String
  | assign name value => value.assigned ++ [name]
  | binary _ left right => left.assigned ++ right.assigned
  | call _ args => assignedAll args
  | var _ | const _ => []

def assignedAll : List Node → List String
  | [] => []
  | node :: rest => node.assigned ++ assignedAll rest

end

end Ir.Node

-- A property of contexts that the assignment of any of the names keeps.
def Context.Stable (P : Context → Prop) (names : List String) : Prop :=
  ∀ name ∈ names, ∀ (context : Context) (value : Value), P context → P (context.set name value)

theorem Context.Stable.of_append {P : Context → Prop} {names names' : List String}
    (h : Stable P (names ++ names')) : Stable P names ∧ Stable P names' := by
  constructor
  · intro name hname
    exact h name (List.mem_append_left _ hname)
  · intro name hname
    exact h name (List.mem_append_right _ hname)

theorem Context.stable_nil (P : Context → Prop) : Stable P [] := by
  rintro name ⟨⟩

-- What other names are bound to is kept.
theorem Context.stable_get? {names : List String} {name : String} (h : name ∉ names)
    (found : Option Value) : Stable (fun context => context.get? name = found) names := by
  intro other hother context value hcontext
  have hne : other ≠ name := by
    rintro rfl
    exact h hother
  rw [Bindings.get?_set, if_neg hne]
  exact hcontext

-- What is known of the context behind a step, whether it succeeds or fails.
def Leaves (P : Context → Prop) : EStateM.Result RuntimeError (Machine σ) α → Prop
  | .ok _ next | .error _ next => P next.context

theorem Leaves.bind {P : Context → Prop} {x : Step σ α} {f : α → Step σ β} {machine : Machine σ}
    (hx : Leaves P (x machine))
    (hf : ∀ value (next : Machine σ), P next.context → Leaves P (f value next)) :
    Leaves P ((x >>= f) machine) := by
  cases hstep : x machine with
  | ok value next =>
      rw [hstep] at hx
      rw [bind_of_ok hstep]
      exact hf value next hx
  | error e next =>
      rw [hstep] at hx
      rw [bind_of_error hstep]
      exact hx

namespace Setting

section

variable (setting : Setting σ) {P : Context → Prop} {machine : Machine σ} (hm : P machine.context)

include hm

theorem leaves_tick : Leaves P (setting.tick machine) := by
  unfold tick
  simp only
  split <;> exact hm

theorem leaves_lookup (name : String) : Leaves P (lookup name machine) := by
  unfold lookup
  split <;> exact hm

theorem leaves_operate (op : Operator) (left right : Value) :
    Leaves P (operate op left right machine) := by
  unfold operate
  split <;> exact hm

theorem leaves_call (func : String) (values : List Value) :
    Leaves P (setting.call func values machine) := by
  unfold call
  split <;> exact hm

end

mutual

-- Induction on the tree: only its assignments touch the context.
theorem leaves_eval (setting : Setting σ) {P : Context → Prop} : ∀ node : Ir.Node,
    Context.Stable P node.assigned → ∀ machine : Machine σ, P machine.context →
    Leaves P (setting.eval node machine)
  | .const c => by
    intro _ machine hm
    rw [eval]
    apply (setting.leaves_tick hm).bind
    intro _ next hnext
    exact hnext
  | .var name => by
    intro _ machine hm
    rw [eval]
    apply (setting.leaves_tick hm).bind
    intro _ next hnext
    exact leaves_lookup hnext name
  | .assign name node => by
    intro hstable machine hm
    rw [Ir.Node.assigned] at hstable
    obtain ⟨hnode, hname⟩ := hstable.of_append
    rw [eval]
    apply (setting.leaves_tick hm).bind
    intro _ next hnext
    apply (setting.leaves_eval node hnode next hnext).bind
    intro value next hnext
    exact hname name (List.mem_singleton_self name) next.context value hnext
  | .binary op left right => by
    intro hstable machine hm
    rw [Ir.Node.assigned] at hstable
    obtain ⟨hleft, hright⟩ := hstable.of_append
    rw [eval]
    apply (setting.leaves_tick hm).bind
    intro _ next hnext
    apply (setting.leaves_eval left hleft next hnext).bind
    intro a next hnext
    apply (setting.leaves_eval right hright next hnext).bind
    intro b next hnext
    exact leaves_operate hnext op a b
  | .call func args => by
    intro hstable machine hm
    rw [Ir.Node.assigned] at hstable
    simp only [eval]
    generalize Text.lowercase func = name
    apply (setting.leaves_tick hm).bind
    intro _ next hnext
    apply (setting.leaves_evalAll args hstable next hnext).bind
    intro values next hnext
    exact setting.leaves_call hnext name values

theorem leaves_evalAll (setting : Setting σ) {P : Context → Prop} : ∀ nodes : List Ir.Node,
    Context.Stable P (Ir.Node.assignedAll nodes) → ∀ machine : Machine σ, P machine.context →
    Leaves P (setting.evalAll nodes machine)
  | [] => by
    intro _ machine hm
    exact hm
  | node :: rest => by
    intro hstable machine hm
    rw [Ir.Node.assignedAll] at hstable
    obtain ⟨hnode, hrest⟩ := hstable.of_append
    rw [evalAll]
    apply (setting.leaves_eval node hnode machine hm).bind
    intro value next hnext
    apply (setting.leaves_evalAll rest hrest next hnext).bind
    intro values next hnext
    exact hnext

end

-- A tree without assignments leaves the context as it is.
theorem leaves_eval_of_assigned_eq_nil (setting : Setting σ) {node : Ir.Node}
    (h : node.assigned = []) (machine : Machine σ) :
    Leaves (fun context => context = machine.context) (setting.eval node machine) :=
  setting.leaves_eval node (h ▸ Context.stable_nil _) machine rfl

-- From statement to statement, wherever the run ends.
theorem holds_run (setting : Setting σ) {P : Context → Prop} (clock : Nat → Nat)
    (begun count : Nat) (nodes : List Ir.Node) (hstable : Context.Stable P (Ir.Node.assignedAll nodes))
    (machine : Machine σ) (hm : P machine.context) :
    P ((setting.run begun nodes machine).resultFrom clock count).context := by
  induction nodes generalizing machine count with
  | nil => exact hm
  | cons node rest ih =>
      rw [Ir.Node.assignedAll] at hstable
      obtain ⟨hnode, hrest⟩ := hstable.of_append
      have hstep := setting.leaves_eval node hnode machine hm
      rw [run]
      cases heval : setting.eval node machine with
      | error e next =>
          rw [heval] at hstep
          exact hstep
      | ok value next =>
          rw [heval] at hstep
          simp only [Timed.resultFrom]
          cases setting.limits.checkElapsed (clock count - begun) with
          | error e => exact hstep
          | ok _ => exact ih (count + 1) hrest next hstep

end Setting

-- However a run ends, it keeps what the assignments of its program keep.
theorem holds_execute {P : Context → Prop} (channel : Channel σ) (limits : Limits)
    {program : Ir.Program} (hstable : Context.Stable P (Ir.Node.assignedAll program.statements))
    {context : Context} (h : P context) (start : σ) (clock : Nat → Nat) :
    P ((execute channel limits program context start).result clock).context := by
  simp only [execute, Timed.result, Timed.resultFrom]
  cases limits.checkInput context.candleCount with
  | error e => exact h
  | ok _ => exact Setting.holds_run _ clock _ _ _ hstable _ h

end CandleScript
