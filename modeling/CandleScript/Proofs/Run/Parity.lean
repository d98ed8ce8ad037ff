import CandleScript.Proofs.Run.Step
import CandleScript.Proofs.Run.Untimed

namespace CandleScript

variable {σ τ α β : Type}

-- A machine whose records are seen through `f`.
def Machine.map (f : σ → τ) (machine : Machine σ) : Machine τ :=
  ⟨machine.context, f machine.kept, machine.operations⟩

def Outcome.map (f : σ → τ) (outcome : Outcome σ) : Outcome τ :=
  ⟨outcome.result, outcome.context, f outcome.kept⟩

-- The end of a step, seen through `f`.
def endMap (f : σ → τ) :
    EStateM.Result RuntimeError (Machine σ) α → EStateM.Result RuntimeError (Machine τ) α
  | .ok value next => .ok value (next.map f)
  | .error e next => .error e (next.map f)

-- The second channel keeps what is seen of the first one through `f`.
def Channel.Shows (f : σ → τ) (channel : Channel σ) (channel' : Channel τ) : Prop :=
  ∀ record kept, f (channel.deliver record kept) = channel'.deliver record (f kept)

-- The second step does what is seen of the first one through `f`.
def Mirrors (f : σ → τ) (x : Step σ α) (x' : Step τ α) : Prop :=
  ∀ machine, x' (machine.map f) = endMap f (x machine)

section

variable {f : σ → τ}

theorem Mirrors.bind {x : Step σ α} {x' : Step τ α} {g : α → Step σ β} {g' : α → Step τ β}
    (hx : Mirrors f x x') (hg : ∀ value, Mirrors f (g value) (g' value)) :
    Mirrors f (x >>= g) (x' >>= g') := by
  intro machine
  have hmirror := hx machine
  cases hstep : x machine with
  | ok value next =>
      rw [hstep] at hmirror
      rw [bind_of_ok hstep, bind_of_ok hmirror]
      exact hg value next
  | error e next =>
      rw [hstep] at hmirror
      rw [bind_of_error hstep, bind_of_error hmirror]
      rfl

theorem mirrors_pure (value : α) : Mirrors f (pure value) (pure value) := fun _ => rfl

namespace Setting

theorem mirrors_lookup (name : String) : Mirrors f (lookup name) (lookup name) := by
  intro machine
  simp only [lookup, Machine.map]
  cases machine.context.get? name <;> rfl

theorem mirrors_bind (name : String) (value : Value) :
    Mirrors f (Setting.bind name value) (Setting.bind name value) := fun _ => rfl

theorem mirrors_operate (op : Operator) (left right : Value) :
    Mirrors f (operate op left right) (operate op left right) := by
  intro machine
  simp only [operate]
  cases op.apply left right <;> rfl

theorem mirrors_tick (channel : Channel σ) (channel' : Channel τ) (limits : Limits)
    (length : Nat) :
    Mirrors f (tick ⟨channel, limits, length⟩) (tick ⟨channel', limits, length⟩) := by
  intro machine
  simp only [tick, Machine.map]
  cases limits.checkOperations (machine.operations + 1) <;> rfl

variable {channel : Channel σ} {channel' : Channel τ}

theorem mirrors_call (hshows : channel.Shows f channel') (limits : Limits) (length : Nat)
    (func : String) (values : List Value) :
    Mirrors f (call ⟨channel, limits, length⟩ func values)
      (call ⟨channel', limits, length⟩ func values) := by
  intro machine
  simp only [call]
  rcases Call.perform func values length with e | ⟨value, _ | record⟩
  · rfl
  · rfl
  · simp only [Machine.map, endMap, hshows record machine.kept]

mutual

-- Induction on the tree: no step looks at what is kept.
theorem mirrors_eval (hshows : channel.Shows f channel') (limits : Limits) (length : Nat) :
    ∀ node : Ir.Node,
    Mirrors f (eval ⟨channel, limits, length⟩ node) (eval ⟨channel', limits, length⟩ node)
  | .const c => by
    simp only [eval]
    apply (mirrors_tick channel channel' limits length).bind
    intro _
    exact mirrors_pure _
  | .var name => by
    simp only [eval]
    apply (mirrors_tick channel channel' limits length).bind
    intro _
    exact mirrors_lookup name
  | .assign name node => by
    simp only [eval]
    apply (mirrors_tick channel channel' limits length).bind
    intro _
    apply (mirrors_eval hshows limits length node).bind
    intro value
    exact mirrors_bind name value
  | .binary op left right => by
    simp only [eval]
    apply (mirrors_tick channel channel' limits length).bind
    intro _
    apply (mirrors_eval hshows limits length left).bind
    intro a
    apply (mirrors_eval hshows limits length right).bind
    intro b
    exact mirrors_operate op a b
  | .call func args => by
    simp only [eval]
    generalize Text.lowercase func = name
    apply (mirrors_tick channel channel' limits length).bind
    intro _
    apply (mirrors_evalAll hshows limits length args).bind
    intro values
    exact mirrors_call hshows limits length name values

theorem mirrors_evalAll (hshows : channel.Shows f channel') (limits : Limits) (length : Nat) :
    ∀ nodes : List Ir.Node,
    Mirrors f (evalAll ⟨channel, limits, length⟩ nodes) (evalAll ⟨channel', limits, length⟩ nodes)
  | [] => mirrors_pure _
  | node :: rest => by
    simp only [evalAll]
    apply (mirrors_eval hshows limits length node).bind
    intro value
    apply (mirrors_evalAll hshows limits length rest).bind
    intro values
    exact mirrors_pure _

end

theorem run_map (hshows : channel.Shows f channel') (limits : Limits) (length : Nat)
    (begun : Nat) (nodes : List Ir.Node) (machine : Machine σ) :
    run ⟨channel', limits, length⟩ begun nodes (machine.map f) =
      (run ⟨channel, limits, length⟩ begun nodes machine).map (Outcome.map f) := by
  induction nodes generalizing machine with
  | nil => rfl
  | cons node rest ih =>
      simp only [run]
      rw [mirrors_eval hshows limits length node machine]
      cases eval ⟨channel, limits, length⟩ node machine with
      | error e next => rfl
      | ok value next =>
          simp only [endMap, Timed.map, Timed.reading.injEq]
          funext now
          cases limits.checkElapsed (now - begun) with
          | error e => rfl
          | ok _ => exact ih next

end Setting

-- A run with the second channel is what is seen through `f` of a run with the
-- first one, look at the clock by look at the clock.
theorem execute_map {channel : Channel σ} {channel' : Channel τ} (hshows : channel.Shows f channel')
    (limits : Limits) (program : Ir.Program) (context : Context) (start : σ) :
    execute channel' limits program context (f start) =
      (execute channel limits program context start).map (Outcome.map f) := by
  simp only [execute, Timed.map, Timed.reading.injEq]
  funext begun
  cases limits.checkInput context.candleCount with
  | error e => rfl
  | ok _ => exact Setting.run_map hshows limits _ begun program.statements ⟨context, start, 0⟩

theorem result_execute_map {channel : Channel σ} {channel' : Channel τ}
    (hshows : channel.Shows f channel') (limits : Limits) (program : Ir.Program)
    (context : Context) (start : σ) (clock : Nat → Nat) :
    (execute channel' limits program context (f start)).result clock =
      ((execute channel limits program context start).result clock).map f := by
  rw [execute_map hshows]
  exact Timed.resultFrom_map _ clock 0 _

end

theorem Channel.journal_shows_plots : Channel.journal.Shows Journal.plots Channel.plots := by
  rintro (plot | event) kept <;> rfl

theorem Channel.journal_shows_events : Channel.journal.Shows Journal.events Channel.events := by
  rintro (plot | event) kept <;> rfl

-- Both engines run alike. Where no clock stops them they leave equal contexts
-- behind and end the same way, and they keep the plots and the events, each in
-- their order, of one run that keeps everything.
theorem engines_agree (limits : Limits) (program : Ir.Program) (context : Context)
    (clock clock' clock'' : Nat → Nat)
    (hvisual : ((runVisual limits program context).result clock).endsOn .executionTime = false)
    (hstrategy : ((runStrategy limits program context).result clock').endsOn .executionTime =
      false)
    (hjournal : ((runJournal limits program context).result clock'').endsOn .executionTime =
      false) :
    let visual := (runVisual limits program context).result clock
    let strategy := (runStrategy limits program context).result clock'
    let journal := (runJournal limits program context).result clock''
    visual.context = strategy.context ∧ visual.result = strategy.result ∧
      journal.context = visual.context ∧ journal.result = visual.result ∧
      visual.kept = journal.kept.plots ∧ strategy.kept = journal.kept.events := by
  intro visual strategy journal
  have hplots (clock : Nat → Nat) : (runVisual limits program context).result clock =
      ((runJournal limits program context).result clock).map Journal.plots :=
    result_execute_map Channel.journal_shows_plots limits program context ⟨[], []⟩ clock
  have hevents (clock : Nat → Nat) : (runStrategy limits program context).result clock =
      ((runJournal limits program context).result clock).map Journal.events :=
    result_execute_map Channel.journal_shows_events limits program context ⟨[], []⟩ clock
  rw [hplots] at hvisual
  rw [hevents] at hstrategy
  have hjournals : ∀ clock, ((runJournal limits program context).result clock).endsOn
      .executionTime = false → (runJournal limits program context).result clock = journal := by
    intro clock htime
    exact (result_execute _ _ _ _ _ _ htime).trans (result_execute _ _ _ _ _ _ hjournal).symm
  have hvisual' : visual = journal.map Journal.plots := by
    rw [← hjournals clock hvisual]
    exact hplots clock
  have hstrategy' : strategy = journal.map Journal.events := by
    rw [← hjournals clock' hstrategy]
    exact hevents clock'
  rw [hvisual', hstrategy']
  exact ⟨rfl, rfl, rfl, rfl, rfl, rfl⟩

-- Draws the close, and again where it stands for the condition of an exit.
def drawnExitProgram : Ir.Program :=
  let drawn : Ir.Node := .call "plot" [.var "close"]
  ⟨[drawn, .call "strategy.close" [.const (.text "L"), drawn]]⟩

theorem engines_agree_drawnExit :
    let context := Bindings.empty.set "close" (.series [some 1.0])
    let visual := (runVisual .standard drawnExitProgram context).result fun _ => 0
    let strategy := (runStrategy .standard drawnExitProgram context).result fun _ => 0
    let journal := (runJournal .standard drawnExitProgram context).result fun _ => 0
    visual.result = .ok 6 ∧ visual.context = strategy.context ∧ strategy.result = .ok 6 ∧
      visual.kept = journal.kept.plots ∧ journal.kept.plots.length = 2 ∧
      strategy.kept = journal.kept.events ∧ journal.kept.events.length = 1 := by
  intro context visual strategy journal
  obtain ⟨hcontext, hresult, -, -, hplots, hevents⟩ := engines_agree .standard drawnExitProgram
    context (fun _ => 0) (fun _ => 0) (fun _ => 0) rfl rfl rfl
  exact ⟨rfl, hcontext, hresult.symm.trans rfl, hplots, rfl, hevents, rfl⟩

end CandleScript
