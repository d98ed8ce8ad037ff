import CandleScript.Proofs.Run.Accounting
import CandleScript.Proofs.Run.Footprint
import CandleScript.Proofs.Text.Order

namespace CandleScript

variable {σ : Type}

-- Neither tree assigns a name that the other one looks up or assigns.
structure Ir.Node.Apart (s t : Node) : Prop where
  assigned_reads : ∀ name ∈ s.assigned, name ∉ t.reads
  reads_assigned : ∀ name ∈ t.assigned, name ∉ s.reads
  assigned : ∀ name ∈ s.assigned, name ∉ t.assigned

namespace Context

theorem sameOn_bindAll {names : List String} {bound : List (String × Value)}
    (h : ∀ name ∈ bound.map Prod.fst, name ∉ names) (context : Context) :
    SameOn names (context.bindAll bound) context := by
  intro name hname
  exact get?_bindAll_of_notMem (fun hbound => h name hbound hname) context

theorem bindAll_set {bound : List (String × Value)} {name : String}
    (h : name ∉ bound.map Prod.fst) (value : Value) (context : Context) :
    bindAll (context.set name value) bound = (context.bindAll bound).set name value := by
  induction bound generalizing context with
  | nil => rfl
  | cons entry rest ih =>
      rw [List.map_cons, List.mem_cons, not_or] at h
      refine Eq.trans ?_ (ih h.2 (context.set entry.1 entry.2))
      exact congrArg (bindAll · rest) (Bindings.set_set h.1 value entry.2 context)

theorem bindAll_bindAll {bound bound' : List (String × Value)}
    (h : ∀ name ∈ bound.map Prod.fst, name ∉ bound'.map Prod.fst) (context : Context) :
    (context.bindAll bound).bindAll bound' = (context.bindAll bound').bindAll bound := by
  induction bound generalizing context with
  | nil => rfl
  | cons entry rest ih =>
      rw [List.map_cons, List.forall_mem_cons] at h
      refine (ih h.2 (context.set entry.1 entry.2)).trans ?_
      exact congrArg (bindAll · rest) (bindAll_set h.1 entry.2 context)

end Context

-- Effects on different names, of which only one hands records over, may come in
-- either order.
theorem Effect.on_on (channel : Channel σ) {effect effect' : Effect}
    (hnames : ∀ name ∈ effect.bound.map Prod.fst, name ∉ effect'.bound.map Prod.fst)
    (hrecords : effect.records = [] ∨ effect'.records = []) (machine : Machine σ) :
    effect'.on channel (effect.on channel machine) =
      effect.on channel (effect'.on channel machine) := by
  have hcontext := Context.bindAll_bindAll hnames machine.context
  have hoperations := Nat.add_right_comm machine.operations effect.operations effect'.operations
  simp only [on, hcontext, hoperations]
  rcases hrecords with hnone | hnone <;> rw [hnone] <;> rfl

namespace Setting

variable {setting : Setting σ} {s t : Ir.Node} {machine between last : Machine σ} {v w : Value}

-- Nothing is evaluated beyond the ceiling of operations.
theorem operations_le_of_eval (h : setting.eval s machine = .ok v between) :
    between.operations ≤ setting.limits.maxOperations := by
  have hfew : machine.operations ≤ setting.limits.maxOperations := by
    cases s <;> simp only [eval] at h
    all_goals
      obtain ⟨_, _, htick, -⟩ := exists_of_bind_eq_ok h
      exact Nat.le_of_succ_le (eq_of_tick_eq_ok htick).2
  have htakes := setting.takes_eval s machine _ hfew (Nat.le_refl _)
  rw [h] at htakes
  exact htakes.2

-- Two steps that succeed one after the other do so in the other order, too, with
-- the same values, and they lead to the same machine.
theorem exists_eval_exchanged (hapart : s.Apart t) (hquiet : s.sinks = [] ∨ t.sinks = [])
    (hs : setting.eval s machine = .ok v between) (ht : setting.eval t between = .ok w last) :
    ∃ first, setting.eval t machine = .ok w first ∧ setting.eval s first = .ok v last := by
  have hfew := operations_le_of_eval ht
  obtain ⟨effect, hfits, rfl, hdoes⟩ := within_eval s machine v between hs
  obtain ⟨effect', hfits', rfl, hdoes'⟩ := within_eval t _ w last ht
  have hsum : machine.operations + effect.operations + effect'.operations ≤
      setting.limits.maxOperations := hfew
  have hbound : effect.bound.map Prod.fst = s.assigned := hfits.bound
  have hbound' : effect'.bound.map Prod.fst = t.assigned := hfits'.bound
  -- each of them finds the names that it looks up as they are without the other
  have hsame' : machine.context.SameOn t.reads (machine.context.bindAll effect.bound) := by
    intro name hname
    refine (Context.sameOn_bindAll ?_ machine.context name hname).symm
    rw [hbound]
    exact hapart.assigned_reads
  have hsame : (machine.context.bindAll effect'.bound).SameOn s.reads machine.context := by
    apply Context.sameOn_bindAll
    rw [hbound']
    exact hapart.reads_assigned
  have hnames : ∀ name ∈ effect.bound.map Prod.fst, name ∉ effect'.bound.map Prod.fst := by
    rw [hbound, hbound']
    exact hapart.assigned
  have hrecords : effect.records = [] ∨ effect'.records = [] := by
    refine hquiet.imp (fun hnone => ?_) fun hnone => ?_
    · exact List.map_eq_nil_iff.mp (hfits.records.trans (congrArg (List.map _) hnone))
    · exact List.map_eq_nil_iff.mp (hfits'.records.trans (congrArg (List.map _) hnone))
  refine ⟨_, hdoes' machine hsame' (by omega), ?_⟩
  rw [Effect.on_on setting.channel hnames hrecords]
  refine hdoes _ hsame ?_
  change machine.operations + effect'.operations + effect.operations ≤ _
  omega

-- From statement to statement up to the two, and from there on with the same
-- machine. Both runs look at the clock at the same times.
theorem resultFrom_run_exchanged (hapart : s.Apart t) (hquiet : s.sinks = [] ∨ t.sinks = [])
    (clock : Nat → Nat) (begun count : Nat) (front back : List Ir.Node) {operations : Nat}
    (hok : ((setting.run begun (front ++ s :: t :: back) machine).resultFrom clock count).result =
      .ok operations) :
    (setting.run begun (front ++ t :: s :: back) machine).resultFrom clock count =
      (setting.run begun (front ++ s :: t :: back) machine).resultFrom clock count := by
  induction front generalizing machine count with
  | nil =>
      simp only [List.nil_append, run] at hok ⊢
      cases hs : setting.eval s machine with
      | error e between =>
          rw [hs] at hok
          cases hok
      | ok v between =>
          simp only [hs, Timed.resultFrom] at hok ⊢
          cases htime : setting.limits.checkElapsed (clock count - begun) with
          | error e =>
              rw [htime] at hok
              cases hok
          | ok _ =>
              simp only [htime] at hok ⊢
              cases ht : setting.eval t between with
              | error e last =>
                  rw [ht] at hok
                  cases hok
              | ok w last =>
                  obtain ⟨first, htfirst, hsfirst⟩ := exists_eval_exchanged hapart hquiet hs ht
                  simp only [htfirst, hsfirst, Timed.resultFrom, htime]
  | cons node front ih =>
      simp only [List.cons_append, run] at hok ⊢
      cases hnode : setting.eval node machine with
      | error e next => rfl
      | ok value next =>
          simp only [hnode, Timed.resultFrom] at hok ⊢
          cases htime : setting.limits.checkElapsed (clock count - begun) with
          | error e => rfl
          | ok _ =>
              rw [htime] at hok
              exact ih (count + 1) hok

end Setting

-- Independent statements may be exchanged. Where a run succeeds, so does the run
-- of the program with two neighbouring statements exchanged of which neither
-- assigns a name that the other one looks up or assigns, and of which one calls no
-- sink, wherever in them assignments and calls stand. Under the same clock, and
-- under any other one that does not stop it, it counts as many operations and
-- leaves the same context and the same records.
theorem execute_exchanged (channel : Channel σ) (limits : Limits) (front back : List Ir.Node)
    {s t : Ir.Node} (hapart : s.Apart t) (hquiet : s.sinks = [] ∨ t.sinks = [])
    (context : Context) (start : σ) (clock : Nat → Nat) {count : Nat}
    (hok : ((execute channel limits ⟨front ++ s :: t :: back⟩ context start).result clock).result =
      .ok count) :
    let written := (execute channel limits ⟨front ++ s :: t :: back⟩ context start).result clock
    let exchanged clock :=
      (execute channel limits ⟨front ++ t :: s :: back⟩ context start).result clock
    exchanged clock = written ∧
      ∀ clock', (exchanged clock').endsOn .executionTime = false → exchanged clock' = written := by
  intro written exchanged
  have hcount : context.candleCount ≤ limits.maxSeriesLength := by
    by_contra hlong
    rw [result_execute_of_lt _ _ _ _ _ _ (Nat.not_le.mp hlong)] at hok
    cases hok
  have hwritten : written = _ := result_execute_of_le channel limits _ context start clock hcount
  have hexchanged : exchanged clock = _ :=
    result_execute_of_le channel limits _ context start clock hcount
  have hsame : exchanged clock = written := by
    rw [hexchanged, hwritten]
    exact Setting.resultFrom_run_exchanged hapart hquiet clock (clock 0) 1 front back
      ((congrArg Outcome.result hwritten).symm.trans hok)
  refine ⟨hsame, fun clock' htime' => ?_⟩
  have htime : (exchanged clock).endsOn .executionTime = false := by
    rw [hsame, Outcome.endsOn, show written.result = .ok count from hok]
  rw [← hsame]
  exact (result_execute _ _ _ _ _ _ htime').trans (result_execute _ _ _ _ _ _ htime).symm

-- `a` is an average and `b` is drawn, both with the period that is bound in front
-- of them, and behind them an entry compares the two.
def averagedStatement : Ir.Node := .assign "a" (.call "SMA" [.var "close", .var "n"])

def drawnStatement : Ir.Node :=
  .assign "b" (.call "Plot" [.binary .mul (.var "close") (.var "n")])

def periodStatements : List Ir.Node := [.assign "n" (.const (.number 2.0))]

def entryStatements : List Ir.Node :=
  [.call "strategy.entry" [.const (.text "L"), .const (.text "buy"),
    .binary .gt (.var "b") (.var "a")]]

-- One plot, one event and 17 operations, in either order.
theorem execute_exchanged_drawn :
    let context := Bindings.empty.set "close" (.series [some 1.0, some 2.0])
    let run s t clock := (execute .journal .standard
      ⟨periodStatements ++ s :: t :: entryStatements⟩ context ⟨[], []⟩).result clock
    let written := run averagedStatement drawnStatement fun _ => 0
    averagedStatement.Apart drawnStatement ∧ averagedStatement.sinks = [] ∧
      written.result = .ok 17 ∧ written.kept.plots.length = 1 ∧
      written.kept.events.length = 1 ∧
      (run drawnStatement averagedStatement fun _ => 0) = written ∧
      ∀ clock, (run drawnStatement averagedStatement clock).endsOn .executionTime = false →
        run drawnStatement averagedStatement clock = written := by
  intro context run written
  have hapart : averagedStatement.Apart drawnStatement :=
    ⟨by decide +kernel, by decide +kernel, by decide +kernel⟩
  have hquiet : averagedStatement.sinks = [] := by decide +kernel
  have hok : written.result = .ok 17 := by decide +kernel
  exact ⟨hapart, hquiet, hok, by decide +kernel, by decide +kernel,
    execute_exchanged .journal .standard periodStatements entryStatements hapart (.inl hquiet)
      context ⟨[], []⟩ (fun _ => 0) hok⟩

end CandleScript
