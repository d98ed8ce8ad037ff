import CandleScript.Proofs.Run.Delivery
import CandleScript.Proofs.Run.Sinks

namespace CandleScript

variable {σ α β : Type}

def Machine.counted (machine : Machine σ) : Machine σ :=
  { machine with operations := machine.operations + 1 }

-- A sink call that was made, with the record that it left behind.
structure Made where
  sink : Sink
  record : Record
  maker : record.maker = sink.function

namespace Setting

mutual

-- The evaluation of a tree succeeds, with its value, the machine after it, and
-- the sink calls that were made on the way. No node is entered without an
-- operation left for it.
inductive Evaluates (setting : Setting σ) :
    Ir.Node → Machine σ → Value → (last : Machine σ) → List Made → Prop where
  | const {machine : Machine σ} (c : Ir.Constant)
    (hfew : machine.operations < setting.limits.maxOperations) :
    Evaluates setting (.const c) machine (.ofConstant c) machine.counted []
  | var {machine : Machine σ} {name : String} {value : Value}
    (hfew : machine.operations < setting.limits.maxOperations)
    (h : machine.context.get? name = some value) :
    Evaluates setting (.var name) machine value machine.counted []
  | assign {machine last : Machine σ} {name : String} {node : Ir.Node} {value : Value}
    {made : List Made} (hfew : machine.operations < setting.limits.maxOperations)
    (h : Evaluates setting node machine.counted value last made) :
    Evaluates setting (.assign name node) machine value
      { last with context := last.context.set name value } made
  | binary {machine between last : Machine σ} {op : Operator} {left right : Ir.Node}
    {a b value : Value} {made later : List Made}
    (hfew : machine.operations < setting.limits.maxOperations)
    (hleft : Evaluates setting left machine.counted a between made)
    (hright : Evaluates setting right between b last later) (h : op.apply a b = .ok value) :
    Evaluates setting (.binary op left right) machine value last (made ++ later)
  | plain {machine last : Machine σ} {func : String} {args : List Ir.Node} {values : List Value}
    {value : Value} {made : List Made} (hfew : machine.operations < setting.limits.maxOperations)
    (hargs : EvaluatesAll setting args machine.counted values last made)
    (h : Call.perform (Text.lowercase func) values setting.length = .ok (value, none)) :
    Evaluates setting (.call func args) machine value last made
  | sink {machine last : Machine σ} {func : String} {function : Builtin} {args : List Ir.Node}
    {values : List Value} {value : Value} {record : Record} {made : List Made}
    (hfew : machine.operations < setting.limits.maxOperations)
    (hargs : EvaluatesAll setting args machine.counted values last made)
    (hfunction : Builtin.lookup? (Text.lowercase func) = some function)
    (h : Call.perform (Text.lowercase func) values setting.length = .ok (value, some record))
    (hmaker : record.maker = function) :
    Evaluates setting (.call func args) machine value
      { last with kept := setting.channel.deliver record last.kept }
      (made ++ [⟨⟨function, args⟩, record, hmaker⟩])

inductive EvaluatesAll (setting : Setting σ) :
    List Ir.Node → Machine σ → List Value → (last : Machine σ) → List Made → Prop where
  | nil (machine : Machine σ) : EvaluatesAll setting [] machine [] machine []
  | cons {machine between last : Machine σ} {node : Ir.Node} {rest : List Ir.Node} {value : Value}
    {values : List Value} {made later : List Made}
    (hnode : Evaluates setting node machine value between made)
    (hrest : EvaluatesAll setting rest between values last later) :
    EvaluatesAll setting (node :: rest) machine (value :: values) last (made ++ later)

end

mutual

-- The evaluation of a tree fails at one of its nodes, with the machine of that
-- moment and the sink calls that were made by then: at the count of the
-- operation, or at what the node itself does. Whatever comes before that node
-- succeeds, and a call that is refused is not among those that were made.
inductive Fails (setting : Setting σ) :
    Ir.Node → Machine σ → RuntimeError → (failing : Ir.Node) → (last : Machine σ) → List Made →
      Prop where
  | counted {machine : Machine σ} (node : Ir.Node)
    (h : setting.limits.maxOperations < machine.operations + 1) :
    Fails setting node machine
      (.limitExceeded ⟨.operations, setting.limits.maxOperations, machine.operations + 1⟩) node
      machine.counted []
  | unbound {machine : Machine σ} {name : String}
    (hfew : machine.operations < setting.limits.maxOperations)
    (h : machine.context.get? name = none) :
    Fails setting (.var name) machine (.undefinedVariable name) (.var name) machine.counted []
  | mismatched {machine between last : Machine σ} {op : Operator} {left right : Ir.Node}
    {a b : Value} {e : RuntimeError} {made later : List Made}
    (hfew : machine.operations < setting.limits.maxOperations)
    (hleft : Evaluates setting left machine.counted a between made)
    (hright : Evaluates setting right between b last later) (h : op.apply a b = .error e) :
    Fails setting (.binary op left right) machine e (.binary op left right) last (made ++ later)
  | refused {machine last : Machine σ} {func : String} {args : List Ir.Node}
    {values : List Value} {e : RuntimeError} {made : List Made}
    (hfew : machine.operations < setting.limits.maxOperations)
    (hargs : EvaluatesAll setting args machine.counted values last made)
    (h : Call.perform (Text.lowercase func) values setting.length = .error e) :
    Fails setting (.call func args) machine e (.call func args) last made
  | value {machine last : Machine σ} {name : String} {node failing : Ir.Node} {e : RuntimeError}
    {made : List Made} (hfew : machine.operations < setting.limits.maxOperations)
    (h : Fails setting node machine.counted e failing last made) :
    Fails setting (.assign name node) machine e failing last made
  | left {machine last : Machine σ} {op : Operator} {left right failing : Ir.Node}
    {e : RuntimeError} {made : List Made}
    (hfew : machine.operations < setting.limits.maxOperations)
    (h : Fails setting left machine.counted e failing last made) :
    Fails setting (.binary op left right) machine e failing last made
  | right {machine between last : Machine σ} {op : Operator} {left right failing : Ir.Node}
    {a : Value} {e : RuntimeError} {made later : List Made}
    (hfew : machine.operations < setting.limits.maxOperations)
    (hleft : Evaluates setting left machine.counted a between made)
    (h : Fails setting right between e failing last later) :
    Fails setting (.binary op left right) machine e failing last (made ++ later)
  | argument {machine last : Machine σ} {func : String} {args : List Ir.Node} {failing : Ir.Node}
    {e : RuntimeError} {made : List Made}
    (hfew : machine.operations < setting.limits.maxOperations)
    (h : FailsAmong setting args machine.counted e failing last made) :
    Fails setting (.call func args) machine e failing last made

inductive FailsAmong (setting : Setting σ) :
    List Ir.Node → Machine σ → RuntimeError → (failing : Ir.Node) → (last : Machine σ) →
      List Made → Prop where
  | here {machine last : Machine σ} {node failing : Ir.Node} {e : RuntimeError} {made : List Made}
    (rest : List Ir.Node) (h : Fails setting node machine e failing last made) :
    FailsAmong setting (node :: rest) machine e failing last made
  | later {machine between last : Machine σ} {node failing : Ir.Node} {rest : List Ir.Node}
    {value : Value} {e : RuntimeError} {made later : List Made}
    (hnode : Evaluates setting node machine value between made)
    (h : FailsAmong setting rest between e failing last later) :
    FailsAmong setting (node :: rest) machine e failing last (made ++ later)

end

-- A run of statements that begins with statement `j`: how it ends, with the
-- machine of its end and the sink calls that were made by then. The time that is
-- over after statement `i` is `elapsed i`.
inductive Goes (setting : Setting σ) (elapsed : ℕ → ℕ) :
    (j : ℕ) → List Ir.Node → Machine σ → Except RuntimeError ℕ → (last : Machine σ) → List Made →
      Prop where
  | done (j : ℕ) (machine : Machine σ) :
    Goes setting elapsed j [] machine (.ok machine.operations) machine []
  | stopped {j : ℕ} {machine last : Machine σ} {node failing : Ir.Node} {e : RuntimeError}
    {made : List Made} (rest : List Ir.Node)
    (h : setting.Fails node machine e failing last made) :
    Goes setting elapsed j (node :: rest) machine (.error e) last made
  | late {j : ℕ} {machine last : Machine σ} {node : Ir.Node} {value : Value} {e : RuntimeError}
    {made : List Made} (rest : List Ir.Node)
    (hnode : setting.Evaluates node machine value last made)
    (htime : setting.limits.checkElapsed (elapsed j) = .error e) :
    Goes setting elapsed j (node :: rest) machine (.error e) last made
  | next {j : ℕ} {machine between last : Machine σ} {node : Ir.Node} {rest : List Ir.Node}
    {value : Value} {result : Except RuntimeError ℕ} {made later : List Made}
    (hnode : setting.Evaluates node machine value between made)
    (htime : setting.limits.checkElapsed (elapsed j) = .ok ())
    (h : Goes setting elapsed (j + 1) rest between result last later) :
    Goes setting elapsed j (node :: rest) machine result last (made ++ later)

end Setting

-- What a step does, told by a relation for its success and one for its failure.
def Traced (succeeds : α → Machine σ → List Made → Prop)
    (fails : RuntimeError → Machine σ → List Made → Prop) :
    EStateM.Result RuntimeError (Machine σ) α → Prop
  | .ok value last => ∃ made, succeeds value last made
  | .error e last => ∃ made, fails e last made

theorem Traced.bind {succeeds : α → Machine σ → List Made → Prop}
    {fails fails' : RuntimeError → Machine σ → List Made → Prop}
    {succeeds' : β → Machine σ → List Made → Prop} {x : Step σ α} {f : α → Step σ β}
    {machine : Machine σ} (hx : Traced succeeds fails (x machine))
    (hfails : ∀ e last made, fails e last made → ∃ all, fails' e last all)
    (hf : ∀ value next made, succeeds value next made → Traced succeeds' fails' (f value next)) :
    Traced succeeds' fails' ((x >>= f) machine) := by
  cases hstep : x machine with
  | ok value next =>
      rw [hstep] at hx
      obtain ⟨made, hmade⟩ := hx
      rw [bind_of_ok hstep]
      exact hf value next made hmade
  | error e last =>
      rw [hstep] at hx
      obtain ⟨made, hmade⟩ := hx
      rw [bind_of_error hstep]
      exact hfails e last made hmade

namespace Setting

variable {setting : Setting σ}

def FailsIn (setting : Setting σ) (node : Ir.Node) (machine : Machine σ) (e : RuntimeError)
    (last : Machine σ) (made : List Made) : Prop :=
  ∃ failing, setting.Fails node machine e failing last made

theorem traced_counted {node : Ir.Node} {succeeds : α → Machine σ → List Made → Prop}
    {f : Unit → Step σ α} {machine : Machine σ}
    (hf : machine.operations < setting.limits.maxOperations →
      Traced succeeds (setting.FailsIn node machine) (f () machine.counted)) :
    Traced succeeds (setting.FailsIn node machine) ((setting.tick >>= f) machine) := by
  by_cases hmany : setting.limits.maxOperations < machine.operations + 1
  · rw [bind_of_error (setting.tick_of_lt hmany)]
    exact ⟨[], node, .counted node hmany⟩
  · have hfew := Nat.not_lt.mp hmany
    rw [bind_of_ok (setting.tick_of_le hfew)]
    exact hf hfew

-- A call whose arguments are evaluated.
theorem traced_call {machine last : Machine σ} {func name : String} {args : List Ir.Node}
    {values : List Value} {made : List Made} (hname : Text.lowercase func = name)
    (hfew : machine.operations < setting.limits.maxOperations)
    (hargs : setting.EvaluatesAll args machine.counted values last made) :
    Traced (setting.Evaluates (.call func args) machine) (setting.FailsIn (.call func args) machine)
      (setting.call name values last) := by
  unfold call
  rw [← hname]
  cases hperform : Call.perform (Text.lowercase func) values setting.length with
  | error e => exact ⟨made, .call func args, .refused hfew hargs hperform⟩
  | ok result =>
      obtain ⟨value, _ | record⟩ := result
      · exact ⟨made, .plain hfew hargs hperform⟩
      · obtain ⟨function, hfunction, hleaves⟩ := Call.leavesRecord_perform hperform
        exact ⟨_, .sink hfew hargs hfunction hperform (hleaves.maker_eq rfl)⟩

mutual

-- Induction on the tree: a node counts, its operands or arguments are evaluated
-- one after the other, and then it does what it does itself.
theorem traced_eval (setting : Setting σ) : ∀ (node : Ir.Node) (machine : Machine σ),
    Traced (setting.Evaluates node machine) (setting.FailsIn node machine)
      (setting.eval node machine)
  | .const c, machine => by
    rw [eval]
    apply traced_counted
    intro hfew
    exact ⟨[], .const c hfew⟩
  | .var name, machine => by
    rw [eval]
    apply traced_counted
    intro hfew
    unfold lookup
    split
    · rename_i value hvalue
      exact ⟨[], .var hfew hvalue⟩
    · rename_i hmissing
      exact ⟨[], .var name, .unbound hfew hmissing⟩
  | .assign name node, machine => by
    rw [eval]
    apply traced_counted
    intro hfew
    apply (traced_eval setting node machine.counted).bind
    · rintro e last made ⟨failing, h⟩
      exact ⟨made, failing, .value hfew h⟩
    · intro value last made h
      exact ⟨made, .assign hfew h⟩
  | .binary op left right, machine => by
    rw [eval]
    apply traced_counted
    intro hfew
    apply (traced_eval setting left machine.counted).bind
    · rintro e last made ⟨failing, h⟩
      exact ⟨made, failing, .left hfew h⟩
    intro a between made hleft
    apply (traced_eval setting right between).bind
    · rintro e last later ⟨failing, h⟩
      exact ⟨made ++ later, failing, .right hfew hleft h⟩
    intro b last later hright
    unfold operate
    split
    · rename_i value happly
      exact ⟨made ++ later, .binary hfew hleft hright happly⟩
    · rename_i e happly
      exact ⟨made ++ later, .binary op left right, .mismatched hfew hleft hright happly⟩
  | .call func args, machine => by
    rw [eval]
    generalize hname : Text.lowercase func = name
    apply traced_counted
    intro hfew
    apply (traced_evalAll setting args machine.counted).bind
    · rintro e last made ⟨failing, h⟩
      exact ⟨made, failing, .argument hfew h⟩
    · intro values last made hargs
      exact traced_call hname hfew hargs

theorem traced_evalAll (setting : Setting σ) : ∀ (nodes : List Ir.Node) (machine : Machine σ),
    Traced (setting.EvaluatesAll nodes machine)
      (fun e last made => ∃ failing, setting.FailsAmong nodes machine e failing last made)
      (setting.evalAll nodes machine)
  | [], machine => ⟨[], .nil machine⟩
  | node :: rest, machine => by
    rw [evalAll]
    apply (traced_eval setting node machine).bind
    · rintro e last made ⟨failing, h⟩
      exact ⟨made, failing, .here rest h⟩
    intro value between made hnode
    apply (traced_evalAll setting rest between).bind
    · rintro e last later ⟨failing, h⟩
      exact ⟨made ++ later, failing, .later hnode h⟩
    · intro values last later hrest
      exact ⟨made ++ later, .cons hnode hrest⟩

end

-- From statement to statement, wherever the run ends.
theorem goes_run (setting : Setting σ) (clock : ℕ → ℕ) (begun j : ℕ) (nodes : List Ir.Node)
    (machine : Machine σ) :
    let outcome := (setting.run begun nodes machine).resultFrom clock (j + 1)
    ∃ last made, outcome = last.outcome outcome.result ∧
      setting.Goes (fun i => clock (i + 1) - begun) j nodes machine outcome.result last made := by
  intro outcome
  induction nodes generalizing machine j with
  | nil => exact ⟨machine, [], rfl, .done j machine⟩
  | cons node rest ih =>
      have hnode := setting.traced_eval node machine
      simp only [outcome, run]
      cases heval : setting.eval node machine with
      | error e last =>
          rw [heval] at hnode
          obtain ⟨made, failing, hfails⟩ := hnode
          exact ⟨last, made, rfl, .stopped rest hfails⟩
      | ok value between =>
          rw [heval] at hnode
          obtain ⟨made, hevaluates⟩ := hnode
          simp only [Timed.resultFrom]
          cases htime : setting.limits.checkElapsed (clock (j + 1) - begun) with
          | error e => exact ⟨between, made, rfl, .late rest hevaluates htime⟩
          | ok _ =>
              obtain ⟨last, later, houtcome, hgoes⟩ := ih (j + 1) between
              exact ⟨last, made ++ later, houtcome, .next hevaluates htime hgoes⟩

mutual

-- A tree that is evaluated makes all of its sink calls.
theorem Evaluates.map_sink : ∀ {node : Ir.Node} {machine last : Machine σ} {value : Value}
    {made : List Made}, setting.Evaluates node machine value last made →
    made.map Made.sink = node.sinks
  | _, _, _, _, _, .const _ _ => rfl
  | _, _, _, _, _, .var _ _ => rfl
  | _, _, _, _, _, .assign _ h => h.map_sink
  | _, _, _, _, _, .binary _ hleft hright _ => by
    rw [List.map_append, hleft.map_sink, hright.map_sink, Ir.Node.sinks]
  | _, _, _, _, _, .plain _ hargs h => by
    obtain ⟨function, hfunction, hleaves⟩ := Call.leavesRecord_perform h
    rw [hargs.map_sink, Ir.Node.sinks, Ir.Node.ownSink, hfunction]
    simp only [hleaves.isSink_eq_false rfl, Bool.false_eq_true, if_false, List.append_nil]
  | _, _, _, _, _, .sink _ hargs hfunction _ hmaker => by
    rw [List.map_append, hargs.map_sink, Ir.Node.sinks, Ir.Node.ownSink, hfunction]
    simp only [Record.isSink_of_maker_eq hmaker, if_true, List.map_cons, List.map_nil]

theorem EvaluatesAll.map_sink : ∀ {nodes : List Ir.Node} {machine last : Machine σ}
    {values : List Value} {made : List Made}, setting.EvaluatesAll nodes machine values last made →
    made.map Made.sink = Ir.Node.sinksAll nodes
  | _, _, _, _, _, .nil _ => rfl
  | _, _, _, _, _, .cons hnode hrest => by
    rw [List.map_append, hnode.map_sink, hrest.map_sink, Ir.Node.sinksAll]

end

mutual

-- Wherever an evaluation fails, the calls that were made are the first ones.
theorem Fails.isPrefix : ∀ {node failing : Ir.Node} {machine last : Machine σ} {e : RuntimeError}
    {made : List Made}, setting.Fails node machine e failing last made →
    made.map Made.sink <+: node.sinks
  | _, _, _, _, _, _, .counted _ _ => List.nil_prefix
  | _, _, _, _, _, _, .unbound _ _ => List.nil_prefix
  | _, _, _, _, _, _, .mismatched _ hleft hright _ => by
    rw [List.map_append, hleft.map_sink, hright.map_sink]
    exact List.prefix_rfl
  | _, _, _, _, _, _, .refused _ hargs _ => by
    rw [hargs.map_sink]
    exact List.prefix_append _ _
  | _, _, _, _, _, _, .value _ h => h.isPrefix
  | _, _, _, _, _, _, .left _ h => h.isPrefix.trans (List.prefix_append _ _)
  | _, _, _, _, _, _, .right _ hleft h => by
    rw [List.map_append, hleft.map_sink]
    exact (List.prefix_append_right_inj _).mpr h.isPrefix
  | _, _, _, _, _, _, .argument _ h => h.isPrefix.trans (List.prefix_append _ _)

theorem FailsAmong.isPrefix : ∀ {nodes : List Ir.Node} {failing : Ir.Node}
    {machine last : Machine σ} {e : RuntimeError} {made : List Made},
    setting.FailsAmong nodes machine e failing last made →
    made.map Made.sink <+: Ir.Node.sinksAll nodes
  | _, _, _, _, _, _, .here _ h => h.isPrefix.trans (List.prefix_append _ _)
  | _, _, _, _, _, _, .later hnode h => by
    rw [List.map_append, hnode.map_sink]
    exact (List.prefix_append_right_inj _).mpr h.isPrefix

end

variable {elapsed : ℕ → ℕ} {j : ℕ} {nodes : List Ir.Node} {machine last : Machine σ}
  {result : Except RuntimeError ℕ} {made : List Made}

theorem Goes.isPrefix (h : setting.Goes elapsed j nodes machine result last made) :
    made.map Made.sink <+: Ir.Node.sinksAll nodes := by
  induction h with
  | done => exact List.nil_prefix
  | stopped rest h => exact h.isPrefix.trans (List.prefix_append _ _)
  | late rest hnode _ =>
      rw [hnode.map_sink]
      exact List.prefix_append _ _
  | next hnode _ _ ih =>
      rw [List.map_append, hnode.map_sink]
      exact (List.prefix_append_right_inj _).mpr ih

theorem Goes.map_sink_of_ok (h : setting.Goes elapsed j nodes machine result last made) {count : ℕ}
    (hok : result = .ok count) : made.map Made.sink = Ir.Node.sinksAll nodes := by
  induction h with
  | done => rfl
  | stopped _ _ | late _ _ _ => cases hok
  | next hnode _ _ ih => rw [List.map_append, hnode.map_sink, ih hok, Ir.Node.sinksAll]

-- The channel is handed the records of the calls that were made, one after the
-- other.
def Delivers (setting : Setting σ) (machine last : Machine σ) (made : List Made) : Prop :=
  last.kept = setting.channel.deliverAll (made.map Made.record) machine.kept

theorem Delivers.append {machine between last : Machine σ} {made later : List Made}
    (h : setting.Delivers machine between made) (hlater : setting.Delivers between last later) :
    setting.Delivers machine last (made ++ later) := by
  unfold Delivers at h hlater ⊢
  rw [hlater, h, List.map_append, Channel.deliverAll_append]

mutual

theorem Evaluates.delivers : ∀ {node : Ir.Node} {machine last : Machine σ} {value : Value}
    {made : List Made}, setting.Evaluates node machine value last made →
    setting.Delivers machine last made
  | _, _, _, _, _, .const _ _ => rfl
  | _, _, _, _, _, .var _ _ => rfl
  | _, _, _, _, _, .assign _ h => h.delivers
  | _, _, _, _, _, .binary _ hleft hright _ => hleft.delivers.append hright.delivers
  | _, _, _, _, _, .plain _ hargs _ => hargs.delivers
  | _, _, _, _, _, .sink _ hargs _ _ _ => hargs.delivers.append rfl

theorem EvaluatesAll.delivers : ∀ {nodes : List Ir.Node} {machine last : Machine σ}
    {values : List Value} {made : List Made}, setting.EvaluatesAll nodes machine values last made →
    setting.Delivers machine last made
  | _, _, _, _, _, .nil _ => rfl
  | _, _, _, _, _, .cons hnode hrest => hnode.delivers.append hrest.delivers

end

mutual

theorem Fails.delivers : ∀ {node failing : Ir.Node} {machine last : Machine σ} {e : RuntimeError}
    {made : List Made}, setting.Fails node machine e failing last made →
    setting.Delivers machine last made
  | _, _, _, _, _, _, .counted _ _ => rfl
  | _, _, _, _, _, _, .unbound _ _ => rfl
  | _, _, _, _, _, _, .mismatched _ hleft hright _ => hleft.delivers.append hright.delivers
  | _, _, _, _, _, _, .refused _ hargs _ => hargs.delivers
  | _, _, _, _, _, _, .value _ h => h.delivers
  | _, _, _, _, _, _, .left _ h => h.delivers
  | _, _, _, _, _, _, .right _ hleft h => hleft.delivers.append h.delivers
  | _, _, _, _, _, _, .argument _ h => h.delivers

theorem FailsAmong.delivers : ∀ {nodes : List Ir.Node} {failing : Ir.Node}
    {machine last : Machine σ} {e : RuntimeError} {made : List Made},
    setting.FailsAmong nodes machine e failing last made → setting.Delivers machine last made
  | _, _, _, _, _, _, .here _ h => h.delivers
  | _, _, _, _, _, _, .later hnode h => hnode.delivers.append h.delivers

end

theorem Goes.delivers (h : setting.Goes elapsed j nodes machine result last made) :
    setting.Delivers machine last made := by
  induction h with
  | done => rfl
  | stopped _ h => exact h.delivers
  | late _ hnode _ => exact hnode.delivers
  | next hnode _ _ ih => exact hnode.delivers.append ih

end Setting

theorem Channel.deliverAll_records (records kept : List Record) :
    Channel.records.deliverAll records kept = kept ++ records := by
  induction records generalizing kept with
  | nil => exact (List.append_nil kept).symm
  | cons record rest ih =>
      rw [deliverAll, List.foldl_cons, ← deliverAll, ih, records_deliver, List.append_assoc]
      rfl

theorem Made.map_maker (made : List Made) :
    (made.map Made.record).map Record.maker = made.map (·.sink.function) := by
  rw [List.map_map]
  exact List.map_congr_left fun m _ => m.maker

-- A run that refuses the candle data makes no call. Any other goes from statement
-- to statement.
theorem goes_execute (channel : Channel σ) (limits : Limits) (program : Ir.Program)
    (context : Context) (start : σ) (clock : ℕ → ℕ) :
    let setting : Setting σ := ⟨channel, limits, context.candleCount⟩
    let outcome := (execute channel limits program context start).result clock
    ∃ last made, outcome = last.outcome outcome.result ∧
      (limits.maxSeriesLength < context.candleCount ∧ (∃ e, outcome.result = .error e) ∧
          last = ⟨context, start, 0⟩ ∧ made = [] ∨
        setting.Goes (fun k => clock (k + 1) - clock 0) 0 program.statements ⟨context, start, 0⟩
          outcome.result last made) := by
  intro setting outcome
  by_cases hcount : limits.maxSeriesLength < context.candleCount
  · have houtcome : outcome = _ :=
      result_execute_of_lt channel limits program context start clock hcount
    rw [houtcome]
    exact ⟨⟨context, start, 0⟩, [], rfl, .inl ⟨hcount, ⟨_, rfl⟩, rfl, rfl⟩⟩
  · have houtcome : outcome = _ :=
      result_execute_of_le channel limits program context start clock (Nat.not_lt.mp hcount)
    rw [houtcome]
    obtain ⟨last, made, hlast, hgoes⟩ :=
      setting.goes_run clock (clock 0) 0 program.statements ⟨context, start, 0⟩
    exact ⟨last, made, hlast, .inr hgoes⟩

-- A run that keeps everything leaves one record of each sink call that was made
-- on its way, in the order of evaluation: the plots those of the calls that draw
-- and the events those of the calls that trade. If the run succeeds all sink
-- calls of the program were made. If it fails those in front of the failure
-- were: none if the candle data is refused, those of the statements that are
-- over if the time is up, and otherwise those before the node that fails.
theorem execute_sinks (limits : Limits) (program : Ir.Program) (context : Context)
    (clock : ℕ → ℕ) :
    let setting : Setting (List Record) := ⟨.records, limits, context.candleCount⟩
    let outcome := (execute .records limits program context []).result clock
    let journal := (runJournal limits program context).result clock
    journal = outcome.map Journal.ofRecords ∧
    ∃ last made, outcome = last.outcome outcome.result ∧ outcome.kept = made.map Made.record ∧
      made.map Made.sink <+: Ir.Node.sinksAll program.statements ∧
      journal.kept.plots.map (·.style.maker) =
        (made.map (·.sink.function)).filter (·.group = .visual) ∧
      journal.kept.events.map Event.maker =
        (made.map (·.sink.function)).filter (·.group = .strategy) ∧
      (∀ count, outcome.result = .ok count →
        made.map Made.sink = Ir.Node.sinksAll program.statements) ∧
      (limits.maxSeriesLength < context.candleCount ∧ (∃ e, outcome.result = .error e) ∧
          last = ⟨context, [], 0⟩ ∧ made = [] ∨
        setting.Goes (fun k => clock (k + 1) - clock 0) 0 program.statements ⟨context, [], 0⟩
          outcome.result last made) := by
  intro setting outcome journal
  have hjournal : journal = outcome.map Journal.ofRecords :=
    result_execute_map Channel.records_shows_journal limits program context [] clock
  have hkept : journal.kept = Journal.ofRecords outcome.kept := congrArg Outcome.kept hjournal
  obtain ⟨last, made, hlast, hgoes⟩ := goes_execute .records limits program context [] clock
  have hrecords : outcome.kept = made.map Made.record := by
    refine (congrArg Outcome.kept hlast).trans ?_
    rcases hgoes with ⟨-, -, rfl, rfl⟩ | hgoes
    · rfl
    · exact hgoes.delivers.trans (Channel.deliverAll_records _ _)
  refine ⟨hjournal, last, made, hlast, hrecords, ?_, ?_, ?_, ?_, hgoes⟩
  · rcases hgoes with ⟨-, -, -, rfl⟩ | hgoes
    · exact List.nil_prefix
    · exact hgoes.isPrefix
  · rw [hkept, Journal.maker_plots, hrecords, Made.map_maker]
  · rw [hkept, Journal.maker_events, hrecords, Made.map_maker]
  · intro count hok
    rcases hgoes with ⟨-, ⟨e, he⟩, -⟩ | hgoes
    · cases hok.symm.trans he
    · exact hgoes.map_sink_of_ok hok

-- Draws the close, and enters where a background is drawn, with the given loss.
def drawnEntryProgram (loss : Float) : Ir.Program :=
  ⟨[.assign "x" (.call "PLOT" [.var "close"]),
    .call "Strategy.Entry" [.const (.text "L"), .const (.text "buy"),
      .call "bgColor" [.var "x"], .const (.number loss)]]⟩

-- A loss has to be positive. Where it is not, the entry fails behind both
-- drawings and leaves no event.
theorem execute_sinks_drawnEntry :
    let context := Bindings.empty.set "close" (.series [some 1.0])
    let run loss :=
      (execute .records .standard (drawnEntryProgram loss) context []).result fun _ => 0
    let journal loss := (runJournal .standard (drawnEntryProgram loss) context).result fun _ => 0
    let e := RuntimeError.invalidArgument .strategyEntry (.notPercentage 3 0.0)
    (run 5.0).result = .ok 9 ∧
      (journal 5.0).kept.plots.map (·.style.maker) = [.plot, .bgcolor] ∧
      (journal 5.0).kept.events.map Event.maker = [.strategyEntry] ∧
      (run 0.0).result = .error e ∧ (journal 0.0).kept.events.map Event.maker = [] ∧
      ∃ last made, Setting.Goes ⟨.records, .standard, 1⟩ (fun _ => 0) 0
        (drawnEntryProgram 0.0).statements ⟨context, [], 0⟩ (.error e) last made ∧
        made.map (·.sink.function) = [.plot, .bgcolor] := by
  intro context run journal e
  obtain ⟨-, -, made, -, -, -, hplots, hevents, hall, -⟩ :=
    execute_sinks .standard (drawnEntryProgram 5.0) context fun _ => 0
  obtain ⟨-, last, made', -, hrecords, -, -, hevents', -, hgoes⟩ :=
    execute_sinks .standard (drawnEntryProgram 0.0) context fun _ => 0
  have hmade : made'.map (·.sink.function) = [.plot, .bgcolor] := by
    rw [← Made.map_maker, ← hrecords]
    decide +kernel
  have hok : (run 5.0).result = .ok 9 := by decide +kernel
  have hfail : (run 0.0).result = .error e := by decide +kernel
  have hsinks : (Ir.Node.sinksAll (drawnEntryProgram 5.0).statements).map Sink.function =
      [.plot, .bgcolor, .strategyEntry] := rfl
  rw [← hall 9 hok, List.map_map] at hsinks
  change made.map (·.sink.function) = _ at hsinks
  rw [hsinks] at hplots hevents
  rw [hmade] at hevents'
  dsimp only [journal]
  refine ⟨hok, hplots, hevents, hfail, hevents', last, made', ?_, hmade⟩
  rcases hgoes with ⟨hmany, -⟩ | hgoes
  · exact absurd hmany (by decide)
  · rw [← hfail]
    exact hgoes

end CandleScript
