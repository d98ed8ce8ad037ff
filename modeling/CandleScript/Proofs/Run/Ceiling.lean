import CandleScript.Proofs.Run.Accounting

namespace CandleScript

variable {σ α β : Type}

def Limits.allowing (limits : Limits) (most : Nat) : Limits := { limits with maxOperations := most }

-- The setting with another ceiling of operations.
def Setting.allowing (setting : Setting σ) (most : Nat) : Setting σ :=
  { setting with limits := setting.limits.allowing most }

-- The step ends because the operations ran out.
def RunsOut : EStateM.Result RuntimeError (Machine σ) α → Prop
  | .error e _ => e.exceeds .operations = true
  | .ok _ _ => False

-- The second step does what the first one does unless that runs out of
-- operations.
def Outlasts (x x' : Step σ α) : Prop := ∀ machine, RunsOut (x machine) ∨ x' machine = x machine

theorem Outlasts.refl (x : Step σ α) : Outlasts x x := fun _ => .inr rfl

theorem Outlasts.bind {x x' : Step σ α} {f f' : α → Step σ β} (hx : Outlasts x x')
    (hf : ∀ value, Outlasts (f value) (f' value)) : Outlasts (x >>= f) (x' >>= f') := by
  intro machine
  have hstep := hx machine
  cases hend : x machine with
  | ok value next =>
      rw [hend] at hstep
      have hsame := hstep.resolve_left id
      rw [bind_of_ok hend, bind_of_ok hsame]
      exact hf value next
  | error e next =>
      rw [hend] at hstep
      rw [bind_of_error hend]
      rcases hstep with hout | hsame
      · exact .inl hout
      · exact .inr (bind_of_error hsame)

namespace Setting

variable (setting : Setting σ) {most : Nat}

theorem outlasts_tick (hmost : setting.limits.maxOperations ≤ most) :
    Outlasts setting.tick (setting.allowing most).tick := by
  intro machine
  by_cases hmany : setting.limits.maxOperations < machine.operations + 1
  · rw [setting.tick_of_lt hmany]
    exact .inl rfl
  · have hfew := Nat.not_lt.mp hmany
    have hmore : machine.operations + 1 ≤ (setting.allowing most).limits.maxOperations :=
      Nat.le_trans hfew hmost
    rw [tick_of_le _ hfew, tick_of_le _ hmore]
    exact .inr rfl

mutual

-- Induction on the tree: the ceiling is looked at where a node is counted and
-- nowhere else.
theorem outlasts_eval (hmost : setting.limits.maxOperations ≤ most) : ∀ node : Ir.Node,
    Outlasts (setting.eval node) ((setting.allowing most).eval node)
  | .const c => by
    simp only [eval]
    exact (setting.outlasts_tick hmost).bind fun _ => .refl _
  | .var name => by
    simp only [eval]
    exact (setting.outlasts_tick hmost).bind fun _ => .refl _
  | .assign name node => by
    simp only [eval]
    apply (setting.outlasts_tick hmost).bind
    intro _
    exact (outlasts_eval hmost node).bind fun _ => .refl _
  | .binary op left right => by
    simp only [eval]
    apply (setting.outlasts_tick hmost).bind
    intro _
    apply (outlasts_eval hmost left).bind
    intro a
    exact (outlasts_eval hmost right).bind fun _ => .refl _
  | .call func args => by
    simp only [eval]
    generalize Text.lowercase func = name
    apply (setting.outlasts_tick hmost).bind
    intro _
    exact (outlasts_evalAll hmost args).bind fun _ => .refl _

theorem outlasts_evalAll (hmost : setting.limits.maxOperations ≤ most) : ∀ nodes : List Ir.Node,
    Outlasts (setting.evalAll nodes) ((setting.allowing most).evalAll nodes)
  | [] => .refl _
  | node :: rest => by
    simp only [evalAll]
    apply (outlasts_eval hmost node).bind
    intro value
    exact (outlasts_evalAll hmost rest).bind fun _ => .refl _

end

section

variable (hmost : setting.limits.maxOperations ≤ most)

include hmost

-- A higher ceiling makes no difference to what does not reach the lower one.
theorem evalAll_allowing {nodes : List Ir.Node} {machine next : Machine σ} {values : List Value}
    (h : setting.evalAll nodes machine = .ok values next) :
    (setting.allowing most).evalAll nodes machine = .ok values next := by
  have hstep := setting.outlasts_evalAll hmost nodes machine
  rw [h] at hstep
  exact hstep.resolve_left id

theorem walk_allowing {nodes : List Ir.Node} {machine : Machine σ}
    (hops : (setting.walk nodes machine).endsOn .operations = false) :
    (setting.allowing most).walk nodes machine = setting.walk nodes machine := by
  rw [walk_eq] at hops
  rw [walk_eq, walk_eq]
  rcases setting.outlasts_evalAll hmost nodes machine with hout | hsame
  · cases hend : setting.evalAll nodes machine with
    | ok values next =>
        rw [hend] at hout
        exact hout.elim
    | error e next =>
        rw [hend] at hout hops
        cases hout.symm.trans hops
  · rw [hsame]

end

-- With an operation for every node there are enough.
theorem not_runsOut_of_le {nodes : List Ir.Node} {machine : Machine σ}
    (hfew : machine.operations + Ir.Node.sizeAll nodes ≤ setting.limits.maxOperations) :
    ¬RunsOut (setting.evalAll nodes machine) := by
  have htakes := setting.takes_evalAll nodes machine _ (by omega) (Nat.le_refl _)
  cases hend : setting.evalAll nodes machine with
  | ok values next => exact id
  | error e next =>
      rw [hend] at htakes
      intro hout
      have hmany := (htakes hout).1
      omega

theorem endsOn_walk_of_le {nodes : List Ir.Node} {machine : Machine σ}
    (hfew : machine.operations + Ir.Node.sizeAll nodes ≤ setting.limits.maxOperations) :
    (setting.walk nodes machine).endsOn .operations = false := by
  have hleft := setting.not_runsOut_of_le hfew
  rw [walk_eq]
  cases hend : setting.evalAll nodes machine with
  | ok values next => rfl
  | error e next =>
      rw [hend] at hleft
      exact Bool.eq_false_iff.mpr hleft

end Setting

end CandleScript
