import CandleScript.Proofs.Ir.Flat
import CandleScript.Proofs.Run.Untimed

namespace CandleScript

variable {σ : Type}

namespace Setting

-- A run of statements that begins with statement `j` comes to statement `k`,
-- with the statements and the machine of that moment. The time that is over
-- after statement `i` is `elapsed i`.
inductive Reaches (setting : Setting σ) (elapsed : Nat → Nat) :
    (j : Nat) → List Ir.Node → Machine σ → (k : Nat) → List Ir.Node → Machine σ → Prop where
  | here (j : Nat) (nodes : List Ir.Node) (machine : Machine σ) :
    Reaches setting elapsed j nodes machine j nodes machine
  | next {j k : Nat} {node : Ir.Node} {rest left : List Ir.Node}
    {machine between before : Machine σ} {value : Value}
    (hnode : setting.eval node machine = .ok value between)
    (htime : setting.limits.checkElapsed (elapsed j) = .ok ())
    (h : Reaches setting elapsed (j + 1) rest between k left before) :
    Reaches setting elapsed j (node :: rest) machine k left before

namespace Reaches

variable {setting : Setting σ} {elapsed : Nat → Nat} {j k : Nat} {nodes left : List Ir.Node}
  {machine before : Machine σ}

theorem mem (h : setting.Reaches elapsed j nodes machine k left before) :
    ∀ node ∈ left, node ∈ nodes := by
  induction h with
  | here => exact fun _ => id
  | next _ _ _ ih => exact fun node hnode => List.mem_cons_of_mem _ (ih node hnode)

-- From the statement that is reached on the run is the one of what is left.
theorem run_eq {clock : Nat → Nat} {begun : Nat}
    (h : setting.Reaches (fun i => clock (i + 1) - begun) j nodes machine k left before) :
    (setting.run begun nodes machine).resultFrom clock (j + 1) =
      (setting.run begun left before).resultFrom clock (k + 1) := by
  induction h with
  | here => rfl
  | next hnode htime _ ih =>
      rw [run, hnode]
      simp only [Timed.resultFrom, htime]
      exact ih

-- Without a clock the statements in front of the one that is reached lead to
-- the same machine.
theorem walk_take (h : setting.Reaches elapsed j nodes machine k left before) :
    ∃ n, k = j + n ∧ ∀ m,
      setting.walk (nodes.take (n + m)) machine = setting.walk (left.take m) before := by
  induction h with
  | here => exact ⟨0, rfl, fun m => by rw [Nat.zero_add]⟩
  | next hnode _ _ ih =>
      obtain ⟨n, rfl, hwalk⟩ := ih
      refine ⟨n + 1, by omega, ?_⟩
      intro m
      rw [Nat.add_right_comm, List.take_succ_cons, walk, hnode]
      exact hwalk m

end Reaches

-- A run that fails does so at one of its statements, or after one.
theorem exists_of_run_eq_error (setting : Setting σ) (clock : Nat → Nat) (begun j : Nat)
    (nodes : List Ir.Node) (machine : Machine σ) {e : RuntimeError}
    (h : ((setting.run begun nodes machine).resultFrom clock (j + 1)).result = .error e) :
    ∃ k node rest before,
      setting.Reaches (fun i => clock (i + 1) - begun) j nodes machine k (node :: rest) before ∧
      ((∃ after, setting.eval node before = .error e after) ∨
        ∃ value after, setting.eval node before = .ok value after ∧
          setting.limits.checkElapsed (clock (k + 1) - begun) = .error e) := by
  induction nodes generalizing machine j with
  | nil => cases h
  | cons node rest ih =>
      rw [run] at h
      cases hnode : setting.eval node machine with
      | error fault after =>
          rw [hnode] at h
          cases h
          exact ⟨j, node, rest, machine, .here _ _ _, .inl ⟨after, hnode⟩⟩
      | ok value after =>
          rw [hnode] at h
          simp only [Timed.resultFrom] at h
          cases htime : setting.limits.checkElapsed (clock (j + 1) - begun) with
          | error fault =>
              rw [htime] at h
              cases h
              exact ⟨j, node, rest, machine, .here _ _ _, .inr ⟨value, after, hnode, htime⟩⟩
          | ok _ =>
              rw [htime] at h
              obtain ⟨k, other, later, before, hreaches, hend⟩ := ih (j + 1) after h
              exact ⟨k, other, later, before, .next hnode htime hreaches, hend⟩

-- A statement whose evaluation fails has not assigned yet.
theorem context_of_eval_eq_error (setting : Setting σ) {node : Ir.Node}
    (hflat : node.body.assigned = []) {machine after : Machine σ} {e : RuntimeError}
    (h : setting.eval node machine = .error e after) : after.context = machine.context := by
  have hpure {node : Ir.Node} (hnode : node.assigned = []) {before : Machine σ}
      (hfail : setting.eval node before = .error e after) : after.context = before.context := by
    have hleaves := setting.leaves_eval_of_assigned_eq_nil hnode before
    rw [hfail] at hleaves
    exact hleaves
  cases node with
  | assign name value =>
      have htick := setting.leaves_tick (P := fun context => context = machine.context) rfl
      rw [eval] at h
      rcases exists_of_bind_eq_error h with hstop | ⟨_, between, hcounted, hrest⟩
      · rw [hstop] at htick
        exact htick
      · rw [hcounted] at htick
        rcases exists_of_bind_eq_error hrest with hvalue | ⟨found, next, -, hbind⟩
        · exact (hpure hflat hvalue).trans htick
        · cases hbind
  | binary _ _ _ | call _ _ | var _ | const _ => exact hpure hflat h

end Setting

-- The first `k` statements of a program.
def Ir.Program.cut (program : Ir.Program) (k : Nat) : Ir.Program := ⟨program.statements.take k⟩

section

variable (channel : Channel σ) (limits : Limits) (program : Ir.Program) (context : Context)
  (start : σ) (clock : Nat → Nat)

-- The time between the start of a run and the look at the clock after
-- statement `k`.
def elapsedAfter (k : Nat) : Nat := clock (k + 1) - clock 0

-- A run of the program comes to statement `k`: its candle data is not refused,
-- and the statements before it are evaluated in time.
def ComesTo (k : Nat) (left : List Ir.Node) (before : Machine σ) : Prop :=
  context.candleCount ≤ limits.maxSeriesLength ∧
    Setting.Reaches ⟨channel, limits, context.candleCount⟩ (elapsedAfter clock) 0
      program.statements ⟨context, start, 0⟩ k left before

-- The evaluation of statement `k` is what makes the run fail.
def FailsAt (k : Nat) (e : RuntimeError) : Prop :=
  ∃ node rest before after,
    ComesTo channel limits program context start clock k (node :: rest) before ∧
      Setting.eval ⟨channel, limits, context.candleCount⟩ node before = .error e after

-- The look at the clock after statement `k` is what makes the run fail.
def LateAfter (k : Nat) (e : RuntimeError) : Prop :=
  ∃ node rest before value after,
    ComesTo channel limits program context start clock k (node :: rest) before ∧
      Setting.eval ⟨channel, limits, context.candleCount⟩ node before = .ok value after ∧
      limits.checkElapsed (elapsedAfter clock k) = .error e

variable {channel limits program context start clock} {k : Nat} {left : List Ir.Node}
  {before : Machine σ}

theorem ComesTo.result_execute
    (h : ComesTo channel limits program context start clock k left before) :
    (execute channel limits program context start).result clock =
      (Setting.run ⟨channel, limits, context.candleCount⟩ (clock 0) left before).resultFrom clock
        (k + 1) := by
  rw [result_execute_of_le _ _ _ _ _ _ h.1]
  exact h.2.run_eq

-- With all the time it needs, a run of the first statements does the same.
theorem ComesTo.result_execute_cut
    (h : ComesTo channel limits program context start clock k left before) (m : Nat) :
    (execute channel limits (program.cut (k + m)) context start).result (fun _ => 0) =
      Setting.walk ⟨channel, limits, context.candleCount⟩ (left.take m) before := by
  rw [result_execute_still _ _ _ _ _ h.1]
  obtain ⟨n, hn, hwalk⟩ := h.2.walk_take
  rw [Nat.zero_add] at hn
  rw [hn]
  exact hwalk m

end

-- A run that fails leaves what the statements before the failure leave. Where
-- the evaluation of statement `k` fails, that is the context behind the first
-- `k` statements, and where the time is up after it, the one behind the first
-- `k + 1`. There is no other way to fail but by candle data that is refused.
-- All this is so if assignments stand at the top of statements, as they do in
-- every compiled source text.
theorem execute_failure_context :
    (∀ optimize source c, compileSource optimize source = .ok c → c.program.Flat) ∧
    ∀ program : Ir.Program, program.Flat →
      ∀ (channel : Channel σ) (limits : Limits) (context : Context) (start : σ) (clock : Nat → Nat),
        let outcome := (execute channel limits program context start).result clock
        let first k := (execute channel limits (program.cut k) context start).result fun _ => 0
        (∀ k e, FailsAt channel limits program context start clock k e →
          outcome.result = .error e ∧ (∃ count, (first k).result = .ok count) ∧
            outcome.context = (first k).context) ∧
        (∀ k e, LateAfter channel limits program context start clock k e →
          outcome.result = .error e ∧ (∃ count, (first (k + 1)).result = .ok count) ∧
            outcome.context = (first (k + 1)).context) ∧
        ∀ e, outcome.result = .error e →
          limits.maxSeriesLength < context.candleCount ∨
            ∃ k, FailsAt channel limits program context start clock k e ∨
              LateAfter channel limits program context start clock k e := by
  refine ⟨fun _ _ _ => flat_of_compileSource, ?_⟩
  intro program hflat channel limits context start clock outcome first
  refine ⟨?_, ?_, ?_⟩
  · rintro k e ⟨node, rest, before, after, hcomes, hfail⟩
    have hbody := hflat node (hcomes.2.mem node List.mem_cons_self)
    have hcontext := Setting.context_of_eval_eq_error _ hbody hfail
    have houtcome : outcome = after.outcome (.error e) := by
      refine hcomes.result_execute.trans ?_
      rw [Setting.run, hfail]
      rfl
    have hfirst : first k = before.outcome (.ok before.operations) := hcomes.result_execute_cut 0
    rw [houtcome, hfirst]
    exact ⟨rfl, ⟨_, rfl⟩, hcontext⟩
  · rintro k e ⟨node, rest, before, value, after, hcomes, hnode, hlate⟩
    have houtcome : outcome = after.outcome (.error e) := by
      refine hcomes.result_execute.trans ?_
      rw [elapsedAfter] at hlate
      rw [Setting.run, hnode]
      simp only [Timed.resultFrom, hlate]
    have hfirst : first (k + 1) = after.outcome (.ok after.operations) := by
      refine (hcomes.result_execute_cut 1).trans ?_
      rw [List.take_succ_cons, Setting.walk, hnode]
      rfl
    rw [houtcome, hfirst]
    exact ⟨rfl, ⟨_, rfl⟩, rfl⟩
  · intro e he
    by_cases hcount : context.candleCount ≤ limits.maxSeriesLength
    · right
      have houtcome : outcome = _ :=
        result_execute_of_le channel limits program context start clock hcount
      rw [houtcome] at he
      obtain ⟨k, node, rest, before, hreaches, hend⟩ :=
        Setting.exists_of_run_eq_error _ clock (clock 0) 0 program.statements _ he
      refine ⟨k, ?_⟩
      rcases hend with ⟨after, hfail⟩ | ⟨value, after, hnode, hlate⟩
      · exact .inl ⟨node, rest, before, after, ⟨hcount, hreaches⟩, hfail⟩
      · exact .inr ⟨node, rest, before, value, after, ⟨hcount, hreaches⟩, hnode, hlate⟩
    · exact .inl (Nat.not_le.mp hcount)

-- `a = close + 1`, `b = c`: the second statement fails, after its operation is
-- counted and before it assigns.
def brokenProgram : Ir.Program :=
  ⟨[.assign "a" (.binary .add (.var "close") (.const (.number 1.0))), .assign "b" (.var "c")]⟩

-- In time it fails at statement 1. With no time to spare it is late after
-- statement 0. Both runs leave `a` behind. Its source text compiles to a flat
-- program, too.
theorem execute_failure_context_broken :
    let context := Bindings.empty.set "close" (.series [some 1.0])
    let run budget clock := (execute .journal ⟨1, 9, budget⟩ brokenProgram context
      ⟨[], []⟩).result clock
    let missing := RuntimeError.undefinedVariable "c"
    let late := RuntimeError.limitExceeded ⟨.executionTime, 0, 5⟩
    (∃ c, compileSource true "a = close + 1 b = c" = .ok c ∧ c.program.Flat) ∧
      brokenProgram.Flat ∧
      FailsAt .journal ⟨1, 9, 1⟩ brokenProgram context ⟨[], []⟩ (fun _ => 7) 1 missing ∧
      (run 1 fun _ => 7).result = .error missing ∧
      (run 1 fun _ => 7).context.get? "a" = some (.series [some 2.0]) ∧
      LateAfter .journal ⟨1, 9, 0⟩ brokenProgram context ⟨[], []⟩ (fun n => n * 5000000) 0 late ∧
      (run 0 fun n => n * 5000000).result = .error late ∧
      (run 0 fun n => n * 5000000).context.get? "a" = some (.series [some 2.0]) := by
  intro context run missing late
  obtain ⟨c, hc, -⟩ := exists_of_compiles true "a = close + 1 b = c" (fun _ => true)
    (by decide +kernel)
  have hcompiled : c.program.Flat := (execute_failure_context (σ := Journal)).1 true _ c hc
  have hflat : brokenProgram.Flat := by
    simp [Ir.Program.Flat, brokenProgram, Ir.Node.body, Ir.Node.assigned]
  have hfails : FailsAt .journal ⟨1, 9, 1⟩ brokenProgram context ⟨[], []⟩ (fun _ => 7) 1 missing :=
    ⟨_, _, _, _, ⟨Nat.le_refl 1, .next rfl rfl (.here _ _ _)⟩, rfl⟩
  have hlate : LateAfter .journal ⟨1, 9, 0⟩ brokenProgram context ⟨[], []⟩
      (fun n => n * 5000000) 0 late :=
    ⟨_, _, _, _, _, ⟨Nat.le_refl 1, .here _ _ _⟩, rfl, rfl⟩
  obtain ⟨hmissing, -, hbefore⟩ := (execute_failure_context.2 brokenProgram hflat .journal ⟨1, 9, 1⟩
    context ⟨[], []⟩ fun _ => 7).1 1 missing hfails
  obtain ⟨hstopped, -, hbehind⟩ := (execute_failure_context.2 brokenProgram hflat .journal ⟨1, 9, 0⟩
    context ⟨[], []⟩ fun n => n * 5000000).2.1 0 late hlate
  exact ⟨⟨c, hc, hcompiled⟩, hflat, hfails, hmissing,
    (congrArg (Bindings.get? · "a") hbefore).trans rfl, hlate, hstopped,
    (congrArg (Bindings.get? · "a") hbehind).trans rfl⟩

end CandleScript
