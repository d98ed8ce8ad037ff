import CandleScript.Proofs.Run.Step
import CandleScript.Run.Engine

namespace CandleScript

variable {σ : Type}

-- Whether an error reports a limit of the given kind.
def RuntimeError.exceeds (kind : Limit.Kind) : RuntimeError → Bool
  | .limitExceeded violation => violation.kind == kind
  | _ => false

-- Whether a run was stopped by a limit of the given kind.
def Outcome.endsOn (kind : Limit.Kind) (outcome : Outcome σ) : Bool :=
  match outcome.result with
  | .error e => e.exceeds kind
  | .ok _ => false

namespace Setting

-- Statements in their order, without a look at the clock.
def walk (setting : Setting σ) : List Ir.Node → Machine σ → Outcome σ
  | [], machine => machine.outcome (.ok machine.operations)
  | node :: rest, machine =>
    match setting.eval node machine with
    | .error e machine => machine.outcome (.error e)
    | .ok _ machine => setting.walk rest machine

-- The look at the clock fails in one way only.
theorem error_of_checkElapsed {limits : Limits} {elapsed : Nat} {e : RuntimeError}
    (hcheck : limits.checkElapsed elapsed = .error e) :
    e.exceeds .executionTime = true := by
  unfold Limits.checkElapsed at hcheck
  split at hcheck
  · cases hcheck
    rfl
  · cases hcheck

-- A clock can only stop a run. Where it does not, it makes no difference.
theorem resultFrom_run (setting : Setting σ) (clock : Nat → Nat) (begun count : Nat)
    (nodes : List Ir.Node) (machine : Machine σ)
    (htime : ((setting.run begun nodes machine).resultFrom clock count).endsOn .executionTime =
      false) :
    (setting.run begun nodes machine).resultFrom clock count = setting.walk nodes machine := by
  induction nodes generalizing machine count with
  | nil => rfl
  | cons node rest ih =>
      simp only [run, walk] at htime ⊢
      cases hstep : setting.eval node machine with
      | error e next => rfl
      | ok value next =>
          simp only [hstep, Timed.resultFrom] at htime ⊢
          cases hcheck : setting.limits.checkElapsed (clock count - begun) with
          | error e =>
              simp [hcheck, Timed.resultFrom, Machine.outcome, Outcome.endsOn,
                error_of_checkElapsed hcheck] at htime
          | ok _ =>
              simp only [hcheck] at htime ⊢
              exact ih (count + 1) next htime

-- Statements are evaluated like the arguments of a call.
theorem walk_eq (setting : Setting σ) (nodes : List Ir.Node) (machine : Machine σ) :
    setting.walk nodes machine =
      match setting.evalAll nodes machine with
      | .ok _ next => next.outcome (.ok next.operations)
      | .error e next => next.outcome (.error e) := by
  induction nodes generalizing machine with
  | nil => rfl
  | cons node rest ih =>
      rw [walk, evalAll]
      cases hnode : setting.eval node machine with
      | error e next => rw [bind_of_error hnode]
      | ok value next =>
          rw [bind_of_ok hnode]
          simp only
          rw [ih]
          cases hrest : setting.evalAll rest next with
          | error e last => rw [bind_of_error hrest]
          | ok values last => rw [bind_of_ok hrest]; rfl

-- A clock that stands still stops no run.
theorem resultFrom_run_still (setting : Setting σ) (count : Nat) (nodes : List Ir.Node)
    (machine : Machine σ) :
    (setting.run 0 nodes machine).resultFrom (fun _ => 0) count = setting.walk nodes machine := by
  induction nodes generalizing machine count with
  | nil => rfl
  | cons node rest ih =>
      rw [run, walk]
      cases setting.eval node machine with
      | error e next => rfl
      | ok value next => exact ih (count + 1) next

end Setting

-- A run without a clock.
def executeUntimed (channel : Channel σ) (limits : Limits) (program : Ir.Program)
    (context : Context) (start : σ) : Outcome σ :=
  match limits.checkInput context.candleCount with
  | .error e => ⟨.error e, context, start⟩
  | .ok () =>
    Setting.walk ⟨channel, limits, context.candleCount⟩ program.statements ⟨context, start, 0⟩

theorem result_execute (channel : Channel σ) (limits : Limits) (program : Ir.Program)
    (context : Context) (start : σ) (clock : Nat → Nat)
    (htime : ((execute channel limits program context start).result clock).endsOn .executionTime =
      false) :
    (execute channel limits program context start).result clock =
      executeUntimed channel limits program context start := by
  simp only [execute, Timed.result, Timed.resultFrom, executeUntimed] at htime ⊢
  cases hinput : limits.checkInput context.candleCount with
  | error e => rfl
  | ok _ =>
      simp only [hinput] at htime
      exact Setting.resultFrom_run _ clock _ _ _ _ htime

-- Candle data within the limit is not refused.
theorem executeUntimed_of_le (channel : Channel σ) (limits : Limits) (program : Ir.Program)
    (context : Context) (start : σ) (hcount : context.candleCount ≤ limits.maxSeriesLength) :
    executeUntimed channel limits program context start =
      Setting.walk ⟨channel, limits, context.candleCount⟩ program.statements
        ⟨context, start, 0⟩ := by
  simp only [executeUntimed, Limits.checkInput, Nat.not_lt.mpr hcount, if_false]

-- Candle data that is too long is refused, whatever the program and the clock.
theorem result_execute_of_lt (channel : Channel σ) (limits : Limits) (program : Ir.Program)
    (context : Context) (start : σ) (clock : Nat → Nat)
    (hcount : limits.maxSeriesLength < context.candleCount) :
    (execute channel limits program context start).result clock =
      ⟨.error (.limitExceeded ⟨.seriesLength, limits.maxSeriesLength, context.candleCount⟩),
        context, start⟩ := by
  simp only [execute, Timed.result, Timed.resultFrom, Limits.checkInput, hcount, if_true]

theorem result_execute_of_le (channel : Channel σ) (limits : Limits) (program : Ir.Program)
    (context : Context) (start : σ) (clock : Nat → Nat)
    (hcount : context.candleCount ≤ limits.maxSeriesLength) :
    (execute channel limits program context start).result clock =
      (Setting.run ⟨channel, limits, context.candleCount⟩ (clock 0) program.statements
        ⟨context, start, 0⟩).resultFrom clock 1 := by
  simp only [execute, Timed.result, Timed.resultFrom, Limits.checkInput, Nat.not_lt.mpr hcount,
    if_false]

-- With all the time it needs, a run goes from statement to statement.
theorem result_execute_still (channel : Channel σ) (limits : Limits) (program : Ir.Program)
    (context : Context) (start : σ) (hcount : context.candleCount ≤ limits.maxSeriesLength) :
    (execute channel limits program context start).result (fun _ => 0) =
      Setting.walk ⟨channel, limits, context.candleCount⟩ program.statements
        ⟨context, start, 0⟩ :=
  (result_execute_of_le channel limits program context start _ hcount).trans
    (Setting.resultFrom_run_still _ 1 program.statements _)

theorem exists_of_exceeds {kind : Limit.Kind} {e : RuntimeError} (h : e.exceeds kind = true) :
    ∃ violation, e = .limitExceeded violation ∧ violation.kind = kind := by
  cases e with
  | limitExceeded violation => exact ⟨violation, rfl, eq_of_beq h⟩
  | _ => cases h

theorem exists_of_endsOn {kind : Limit.Kind} {outcome : Outcome σ}
    (h : outcome.endsOn kind = true) :
    ∃ violation, outcome.result = .error (.limitExceeded violation) ∧ violation.kind = kind := by
  unfold Outcome.endsOn at h
  split at h
  · rename_i e he
    obtain ⟨violation, rfl, hkind⟩ := exists_of_exceeds h
    exact ⟨violation, he, hkind⟩
  · cases h

-- A run on candle data that is not refused is stopped by the clock, or goes
-- from statement to statement.
theorem endsOn_or_walk (channel : Channel σ) (limits : Limits) (program : Ir.Program)
    (context : Context) (start : σ) (clock : Nat → Nat)
    (hcount : context.candleCount ≤ limits.maxSeriesLength) :
    ((execute channel limits program context start).result clock).endsOn .executionTime = true ∨
    (execute channel limits program context start).result clock =
      Setting.walk ⟨channel, limits, context.candleCount⟩ program.statements
        ⟨context, start, 0⟩ := by
  cases htime : ((execute channel limits program context start).result clock).endsOn
      .executionTime with
  | true => exact .inl rfl
  | false =>
      right
      rw [result_execute _ _ _ _ _ _ htime]
      exact executeUntimed_of_le _ _ _ _ _ hcount

-- A run is stopped by a limit, or goes from statement to statement.
theorem limitExceeded_or_walk (channel : Channel σ) (limits : Limits) (program : Ir.Program)
    (context : Context) (start : σ) (clock : Nat → Nat) :
    (∃ violation, ((execute channel limits program context start).result clock).result =
      .error (.limitExceeded violation)) ∨
    (execute channel limits program context start).result clock =
      Setting.walk ⟨channel, limits, context.candleCount⟩ program.statements
        ⟨context, start, 0⟩ := by
  by_cases hcount : context.candleCount ≤ limits.maxSeriesLength
  · rcases endsOn_or_walk channel limits program context start clock hcount with hstop | hwalk
    · obtain ⟨violation, hresult, -⟩ := exists_of_endsOn hstop
      exact .inl ⟨violation, hresult⟩
    · exact .inr hwalk
  · left
    rw [result_execute_of_lt _ _ _ _ _ _ (Nat.not_le.mp hcount)]
    exact ⟨_, rfl⟩

end CandleScript
