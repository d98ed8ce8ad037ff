import CandleScript.Proofs.Run.Ends

namespace CandleScript

variable {σ α β : Type}

-- Only the first operation too many is reported, and only where `total`
-- operations are too many.
def Limits.Overdrawn (limits : Limits) (total : Nat) (e : RuntimeError) : Prop :=
  e.exceeds .operations = true →
    limits.maxOperations < total ∧
      e = .limitExceeded ⟨.operations, limits.maxOperations, limits.maxOperations + 1⟩

theorem Limits.overdrawn_of_not_exceeds {limits : Limits} {total : Nat} {e : RuntimeError}
    (h : e.exceeds .operations = false) : limits.Overdrawn total e := by
  intro hexceeds
  cases h.symm.trans hexceeds

theorem Operator.Refusal.not_exceeds {op : Operator} {e : RuntimeError} (h : op.Refusal e)
    (kind : Limit.Kind) : e.exceeds kind = false := by
  cases h <;> rfl

theorem Call.Refusal.not_exceeds {func : String} {count : Nat} {e : RuntimeError}
    (h : Call.Refusal func count e) (kind : Limit.Kind) : e.exceeds kind = false := by
  cases h <;> rfl

namespace Setting

-- A step that takes `cost` operations: it counts exactly these if it succeeds,
-- and the operations run out only if they are too many for the `total` at hand.
def Takes (setting : Setting σ) (cost : Nat) (x : Step σ α) : Prop :=
  ∀ (machine : Machine σ) (total : Nat), machine.operations ≤ setting.limits.maxOperations →
    machine.operations + cost ≤ total →
    Ends (fun _ next => next.operations = machine.operations + cost ∧
      next.operations ≤ setting.limits.maxOperations) (setting.limits.Overdrawn total) (x machine)

variable {setting : Setting σ}

theorem Takes.bind {x : Step σ α} {f : α → Step σ β} {cost more : Nat}
    (hx : setting.Takes cost x) (hf : ∀ value, setting.Takes more (f value)) :
    setting.Takes (cost + more) (x >>= f) := by
  intro machine total hfew htotal
  apply (hx machine total hfew (by omega)).bind
  rintro value next ⟨hnext, hleft⟩
  apply (hf value next total hleft (by omega)).mono _ fun _ => id
  rintro result last ⟨hlast, hfinal⟩
  exact ⟨by omega, hfinal⟩

-- The same where what follows takes no operation.
theorem Takes.before {x : Step σ α} {f : α → Step σ β} {cost : Nat} (hx : setting.Takes cost x)
    (hf : ∀ value, setting.Takes 0 (f value)) : setting.Takes cost (x >>= f) :=
  hx.bind hf

theorem takes_pure (value : α) : setting.Takes 0 (pure value) := by
  intro machine total hfew _
  exact ⟨rfl, hfew⟩

variable (setting)

theorem takes_tick : setting.Takes 1 setting.tick := by
  intro machine total hfew htotal
  apply (setting.ends_tick machine _).mono _ fun _ => id
  · intro hmany _
    have hlast : machine.operations = setting.limits.maxOperations := by omega
    exact ⟨by omega, by rw [hlast]⟩
  · rintro _ next ⟨rfl, hnext⟩
    exact ⟨rfl, hnext⟩

theorem takes_lookup (name : String) : setting.Takes 0 (lookup name) := by
  intro machine total hfew _
  apply (ends_lookup name machine fun _ => Limits.overdrawn_of_not_exceeds rfl).mono _ fun _ => id
  rintro _ next ⟨-, rfl⟩
  exact ⟨rfl, hfew⟩

theorem takes_bind (name : String) (value : Value) :
    setting.Takes 0 (Setting.bind name value) := by
  intro machine total hfew _
  exact ⟨rfl, hfew⟩

theorem takes_operate (op : Operator) (left right : Value) :
    setting.Takes 0 (operate op left right) := by
  intro machine total hfew _
  apply (ends_operate op left right machine _).mono _ fun _ => id
  · intro e he
    exact Limits.overdrawn_of_not_exceeds (he.not_exceeds _)
  · rintro _ next rfl
    exact ⟨rfl, hfew⟩

theorem takes_call (func : String) (values : List Value) :
    setting.Takes 0 (setting.call func values) := by
  intro machine total hfew _
  apply (setting.ends_call func values machine _).mono _ fun _ => id
  · intro e he
    exact Limits.overdrawn_of_not_exceeds (he.not_exceeds _)
  · rintro _ next ⟨kept, rfl⟩
    exact ⟨rfl, hfew⟩

mutual

-- Induction on the tree: each node is evaluated once, whatever its value.
theorem takes_eval : ∀ node : Ir.Node, setting.Takes node.size (setting.eval node)
  | .const c => by
    rw [eval, Ir.Node.size]
    apply setting.takes_tick.before
    intro _
    exact takes_pure _
  | .var name => by
    rw [eval, Ir.Node.size]
    apply setting.takes_tick.before
    intro _
    exact setting.takes_lookup name
  | .assign name node => by
    rw [eval, Ir.Node.size]
    apply setting.takes_tick.bind
    intro _
    apply (takes_eval node).before
    intro value
    exact setting.takes_bind name value
  | .binary op left right => by
    rw [eval, Ir.Node.size, Nat.add_assoc]
    apply setting.takes_tick.bind
    intro _
    apply (takes_eval left).bind
    intro a
    apply (takes_eval right).before
    intro b
    exact setting.takes_operate op a b
  | .call func args => by
    simp only [eval, Ir.Node.size]
    generalize Text.lowercase func = name
    apply setting.takes_tick.bind
    intro _
    apply (takes_evalAll args).before
    intro values
    exact setting.takes_call name values

theorem takes_evalAll : ∀ nodes : List Ir.Node,
    setting.Takes (Ir.Node.sizeAll nodes) (setting.evalAll nodes)
  | [] => takes_pure _
  | node :: rest => by
    rw [evalAll, Ir.Node.sizeAll]
    apply (takes_eval node).bind
    intro value
    apply (takes_evalAll rest).before
    intro values
    exact takes_pure _

end

end Setting

-- What the account of a whole run says of its end.
def Limits.Accounts (limits : Limits) (total : Nat) : Except RuntimeError Nat → Prop
  | .ok count => count = total ∧ count ≤ limits.maxOperations
  | .error e => limits.Overdrawn total e

theorem Setting.accounts_walk (setting : Setting σ) (nodes : List Ir.Node) (machine : Machine σ)
    (hnone : machine.operations = 0) :
    setting.limits.Accounts (Ir.Node.sizeAll nodes) (setting.walk nodes machine).result := by
  have htakes := setting.takes_evalAll nodes machine (Ir.Node.sizeAll nodes)
    (hnone ▸ Nat.zero_le _) (Nat.le_of_eq (by rw [hnone, Nat.zero_add]))
  rw [hnone, Nat.zero_add] at htakes
  rw [walk_eq]
  split
  · rename_i hend
    rw [hend] at htakes
    exact htakes
  · rename_i hend
    rw [hend] at htakes
    exact htakes

theorem accounts_execute (channel : Channel σ) (limits : Limits) (program : Ir.Program)
    (context : Context) (start : σ) (clock : Nat → Nat) :
    limits.Accounts program.size
      ((execute channel limits program context start).result clock).result := by
  by_cases hcount : context.candleCount ≤ limits.maxSeriesLength
  · rcases endsOn_or_walk channel limits program context start clock hcount with hlate | hwalk
    · obtain ⟨⟨kind, limit, observed⟩, hresult, rfl⟩ := exists_of_endsOn hlate
      rw [hresult]
      exact Limits.overdrawn_of_not_exceeds rfl
    · rw [hwalk]
      exact Setting.accounts_walk _ program.statements _ rfl
  · rw [result_execute_of_lt _ _ _ _ _ _ (Nat.not_le.mp hcount)]
    exact Limits.overdrawn_of_not_exceeds rfl

-- Operations are accounted for exactly. A run that succeeds has evaluated every
-- node of its program once; a program with more nodes than operations are
-- allowed fails, and only such a one runs out of operations, at the first one
-- too many. Candle data that is too long is refused, and nothing is touched.
theorem execute_operations (channel : Channel σ) (limits : Limits) (program : Ir.Program)
    (context : Context) (start : σ) (clock : Nat → Nat) :
    let outcome := (execute channel limits program context start).result clock
    (∀ count, outcome.result = .ok count →
      count = program.size ∧ count ≤ limits.maxOperations) ∧
    (program.size ≤ limits.maxOperations → outcome.endsOn .operations = false) ∧
    (limits.maxOperations < program.size → ∃ e, outcome.result = .error e) ∧
    (∀ violation, outcome.result = .error (.limitExceeded violation) →
      violation.kind = .operations →
      violation.limit = limits.maxOperations ∧ violation.observed = limits.maxOperations + 1) ∧
    (limits.maxSeriesLength < context.candleCount →
      outcome = ⟨.error (.limitExceeded
        ⟨.seriesLength, limits.maxSeriesLength, context.candleCount⟩), context, start⟩) := by
  intro outcome
  have haccounts : limits.Accounts program.size outcome.result :=
    accounts_execute channel limits program context start clock
  refine ⟨?_, ?_, ?_, ?_, ?_⟩
  · intro count hresult
    rw [hresult] at haccounts
    exact haccounts
  · intro hfew
    cases hend : outcome.endsOn .operations with
    | false => rfl
    | true =>
        obtain ⟨violation, hresult, hkind⟩ := exists_of_endsOn hend
        rw [hresult] at haccounts
        have hmany := (haccounts (beq_iff_eq.mpr hkind)).1
        omega
  · intro hmany
    cases hresult : outcome.result with
    | error e => exact ⟨e, rfl⟩
    | ok count =>
        rw [hresult] at haccounts
        obtain ⟨hcount, hfew⟩ := haccounts
        omega
  · intro violation hresult hkind
    rw [hresult] at haccounts
    cases (haccounts (beq_iff_eq.mpr hkind)).2
    exact ⟨rfl, rfl⟩
  · exact result_execute_of_lt channel limits program context start clock

-- `a = close + close + close`
def sumProgram : Ir.Program :=
  let close : Ir.Node := .var "close"
  ⟨[.assign "a" (.binary .add (.binary .add close close) close)]⟩

-- Six operations are enough for its six nodes, and five are not.
theorem execute_operations_sum :
    let context := Bindings.empty.set "close" (.series [some 1.0])
    let run longest most := (runJournal ⟨longest, most, 5000⟩ sumProgram context).result fun _ => 0
    sumProgram.size = 6 ∧ (run 1 6).result = .ok 6 ∧ (run 1 6).endsOn .operations = false ∧
      (∃ e, (run 1 5).result = .error e) ∧
      run 0 6 = ⟨.error (.limitExceeded ⟨.seriesLength, 0, 1⟩), context, ⟨[], []⟩⟩ := by
  intro context run
  have haccount longest most := execute_operations .journal ⟨longest, most, 5000⟩ sumProgram context
    ⟨[], []⟩ fun _ => 0
  have hsize : 6 = sumProgram.size := ((haccount 1 6).1 6 rfl).1
  exact ⟨hsize.symm, rfl, (haccount 1 6).2.1 (Nat.le_of_eq hsize.symm),
    (haccount 1 5).2.2.1 (hsize ▸ Nat.lt_succ_self 5), (haccount 0 6).2.2.2.2 Nat.one_pos⟩

end CandleScript
