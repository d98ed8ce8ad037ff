import CandleScript.Proofs.Ir.Flat
import CandleScript.Proofs.Run.Sinks

namespace CandleScript

variable {α β : Type}

theorem Record.exists_event {record : Record} (h : record.maker.group ≠ .visual) :
    ∃ event, record = .event event := by
  cases record with
  | plot p => exact absurd p.style.group_maker h
  | event e => exact ⟨e, rfl⟩

theorem Record.exists_plot {record : Record} (h : record.maker.group = .visual) :
    ∃ plot, record = .plot plot := by
  cases record with
  | plot p => exact ⟨p, rfl⟩
  | event e => cases e.group_maker.symm.trans h

namespace Operator

open Call (Returns returns_ok returns_error)

theorem returns_onNumbers (op : Operator) (a b : Float) :
    Returns (fun value => value.type ≠ .text) (op.onNumbers a b) := by
  cases op with
  | div =>
      simp only [onNumbers]
      split
      · exact returns_error _
      · exact returns_ok (by rintro ⟨⟩)
  | _ => exact returns_ok (by rintro ⟨⟩)

theorem returns_onTexts (op : Operator) (a b : String) :
    Returns (fun value => value.type ≠ .text) (op.onTexts a b) := by
  cases op with
  | eq | ne => exact returns_ok (by rintro ⟨⟩)
  | _ => exact returns_error _

theorem not_text_spread (op : Operator) (left right : Value) (length : Nat) :
    (op.spread left right length).type ≠ .text := by
  unfold spread onSeries
  split
  · dsimp only
    split <;> rintro ⟨⟩
  · rintro ⟨⟩

-- No operator gives a text.
theorem not_text_of_apply (op : Operator) (left right : Value) :
    Returns (fun value => value.type ≠ .text) (op.apply left right) := by
  unfold apply
  split
  · exact op.returns_onNumbers _ _
  · split
    · exact op.returns_onTexts _ _
    · split
      · exact returns_ok (op.not_text_spread left right _)
      · exact returns_error _

end Operator

namespace Call

-- What a call that draws goes by: it gives its first argument back, which is a
-- series, and all others are texts.
structure GivesBack (call : Call) (value : Value) : Prop where
  first : call.values[0]? = some value
  isSeries : value.isSeries = true
  texts : ∀ index other, 0 < index → call.values[index]? = some other → other.type = .text

theorem returns_argument (call : Call) (index : Nat) :
    Returns (fun value => call.values[index]? = some value) (call.argument index) := by
  unfold argument
  split
  · rename_i value hvalue
    exact returns_ok hvalue
  · exact returns_error _

theorem returns_textOr (call : Call) (index : Nat) (otherwise : String) :
    Returns (fun _ => ∀ other, call.values[index]? = some other → other.type = .text)
      (call.textOr index otherwise) := by
  unfold textOr
  split
  · rename_i hnone
    exact returns_ok fun other hother => nomatch hnone.symm.trans hother
  · rename_i text htext
    refine returns_ok fun other hother => ?_
    cases htext.symm.trans hother
    rfl
  · exact returns_error _

theorem returns_shownFirst (call : Call) :
    Returns (fun value => call.values[0]? = some value ∧ value.isSeries = true)
      call.shownFirst := by
  refine (call.returns_argument 0).bind fun value hvalue => ?_
  split
  · rename_i hseries
    exact returns_ok ⟨hvalue, hseries⟩
  · exact returns_error _

theorem returns_plotted (call : Call) :
    Returns (fun _ => ∃ value, call.values[0]? = some value ∧ value.isSeries = true)
      call.plotted := by
  refine (call.returns_argument 0).bind fun value hvalue => ?_
  split
  · exact returns_ok ⟨_, hvalue, rfl⟩
  · exact returns_bind fun _ => returns_ok ⟨_, hvalue, rfl⟩
  · exact returns_error _

variable {call : Call}

theorem givesBack_plot (h : call.values.length ≤ 3) :
    Returns (fun result => call.GivesBack result.1) call.plot := by
  refine call.returns_plotted.bind fun _ ⟨first, hfirst, hseries⟩ => ?_
  refine (call.returns_textOr 1 _).bind fun _ htitle => ?_
  refine (call.returns_textOr 2 _).bind fun _ hcolor => ?_
  refine (call.returns_argument 0).bind fun value hvalue => returns_ok ?_
  cases hfirst.symm.trans hvalue
  refine ⟨hvalue, hseries, fun index other hindex hother => ?_⟩
  have hlt := (List.getElem?_eq_some_iff.mp hother).1
  obtain rfl | rfl : index = 1 ∨ index = 2 := by omega
  · exact htitle other hother
  · exact hcolor other hother

theorem givesBack_plotshape (h : call.values.length ≤ 3) :
    Returns (fun result => call.GivesBack result.1) call.plotshape := by
  refine call.returns_shownFirst.bind fun value ⟨hvalue, hseries⟩ => ?_
  refine (call.returns_textOr 1 _).bind fun _ htitle => ?_
  refine (call.returns_textOr 2 _).bind fun _ hcolor => returns_bind fun _ => returns_ok ?_
  refine ⟨hvalue, hseries, fun index other hindex hother => ?_⟩
  have hlt := (List.getElem?_eq_some_iff.mp hother).1
  obtain rfl | rfl : index = 1 ∨ index = 2 := by omega
  · exact htitle other hother
  · exact hcolor other hother

theorem givesBack_bgcolor (h : call.values.length ≤ 2) :
    Returns (fun result => call.GivesBack result.1) call.bgcolor := by
  refine call.returns_shownFirst.bind fun value ⟨hvalue, hseries⟩ => ?_
  refine (call.returns_textOr 1 _).bind fun _ hcolor => returns_bind fun _ => returns_ok ?_
  refine ⟨hvalue, hseries, fun index other hindex hother => ?_⟩
  have hlt := (List.getElem?_eq_some_iff.mp hother).1
  obtain rfl : index = 1 := by omega
  exact hcolor other hother

theorem givesBack_apply (hgroup : call.function.group = .visual)
    (haccepts : call.function.accepts call.values.length = true) :
    Returns (fun result => call.GivesBack result.1) call.apply := by
  rw [Builtin.accepts, Bool.and_eq_true, decide_eq_true_eq, decide_eq_true_eq] at haccepts
  unfold apply
  cases hfunction : call.function <;> rw [hfunction] at hgroup haccepts
  case plot => exact givesBack_plot haccepts.2
  case plotshape => exact givesBack_plotshape haccepts.2
  case bgcolor => exact givesBack_bgcolor haccepts.2
  all_goals cases hgroup

-- No call gives a text.
theorem not_text_of_apply (haccepts : call.function.accepts call.values.length = true) :
    Returns (fun result => result.1.type ≠ .text) call.apply := by
  by_cases hgroup : call.function.group = .visual
  · intro result h
    have hseries := (givesBack_apply hgroup haccepts result h).isSeries
    intro htext
    cases hvalue : result.1 <;> rw [hvalue] at hseries htext
    case series | boolSeries => cases htext
    all_goals cases hseries
  · unfold apply
    cases hfunction : call.function <;> rw [hfunction] at hgroup
    case plot | plotshape | bgcolor => exact absurd rfl hgroup
    case sma | ema | rsi | obv | crossover | crossunder | strategyClose =>
      exact returns_bind fun _ => returns_bind fun _ => returns_ok nofun
    case macd | macdSignal | macdHist | bbUpper | bbLower | stochK | stochD =>
      exact returns_bind fun _ => returns_ok nofun
    case vwap | cci =>
      exact returns_bind fun _ => returns_bind fun _ => returns_bind fun _ =>
        returns_bind fun _ => returns_ok nofun
    case supertrend | mfi | strategyEntry =>
      exact returns_bind fun _ => returns_bind fun _ => returns_bind fun _ =>
        returns_bind fun _ => returns_bind fun _ => returns_ok nofun

end Call

namespace Ir

namespace Node

-- Whether calls by a name draw. Names are read in any letter case.
def draws (func : String) : Bool :=
  (Builtin.lookup? (Text.lowercase func)).map Builtin.group = some .visual

mutual

-- A tree with its first argument in the place of each call that draws.
def undrawn : Node → Node
  | assign name value => assign name value.undrawn
  | binary op left right => binary op left.undrawn right.undrawn
  | call func args =>
    if draws func then (undrawnAll args).headD (call func []) else call func (undrawnAll args)
  | var name => var name
  | const value => const value

def undrawnAll : List Node → List Node
  | [] => []
  | node :: rest => node.undrawn :: undrawnAll rest

end

end Node

def Program.undrawn (program : Program) : Program := ⟨Node.undrawnAll program.statements⟩

end Ir

namespace Call

-- A call that draws gives its first argument back and leaves a plot behind, if
-- anything. All its other arguments are texts.
theorem exists_of_perform_of_draws {func : String} (hdraws : Ir.Node.draws func = true)
    {values : List Value} {length : Nat} {result : Result}
    (h : perform (Text.lowercase func) values length = .ok result) :
    (∃ others, values = result.1 :: others ∧ ∀ other ∈ others, other.type = .text) ∧
      ∀ record, result.2 = some record → ∃ plot, record = .plot plot := by
  obtain ⟨function, hfunction, haccepts, happly⟩ := exists_of_perform h
  have hgroup : function.group = .visual := by
    simpa [Ir.Node.draws, hfunction] using hdraws
  obtain ⟨hfirst, -, htexts⟩ := givesBack_apply hgroup haccepts result happly
  refine ⟨?_, fun record hrecord => Record.exists_plot ?_⟩
  · cases values with
    | nil => cases hfirst
    | cons first others =>
        cases hfirst
        refine ⟨others, rfl, fun other hother => ?_⟩
        obtain ⟨index, hindex⟩ := List.mem_iff_getElem?.mp hother
        exact htexts (index + 1) other (Nat.succ_pos index) hindex
  · rw [(leavesRecord_apply _ result happly).maker_eq hrecord]
    exact hgroup

end Call

namespace Setting

variable {σ : Type} {setting : Setting σ}

-- Without assignments, a text is found in the program or in the context, and
-- nothing happens on the way but the count of one operation.
theorem eq_of_eval_text {node : Ir.Node} (hpure : node.assigned = []) {machine next : Machine σ}
    {value : Value} (h : setting.eval node machine = .ok value next) (htext : value.type = .text) :
    next = { machine with operations := machine.operations + 1 } := by
  cases node with
  | const c =>
      rw [eval] at h
      obtain ⟨_, between, htick, hpure⟩ := exists_of_bind_eq_ok h
      cases hpure
      exact (eq_of_tick_eq_ok htick).1
  | var name =>
      rw [eval] at h
      obtain ⟨_, between, htick, hlookup⟩ := exists_of_bind_eq_ok h
      unfold lookup at hlookup
      split at hlookup <;> cases hlookup
      exact (eq_of_tick_eq_ok htick).1
  | assign name node => exact absurd hpure (by simp [Ir.Node.assigned])
  | binary op left right =>
      rw [eval] at h
      obtain ⟨_, _, -, h⟩ := exists_of_bind_eq_ok h
      obtain ⟨a, _, -, h⟩ := exists_of_bind_eq_ok h
      obtain ⟨b, _, -, h⟩ := exists_of_bind_eq_ok h
      unfold operate at h
      split at h
      · rename_i happly
        cases h
        exact absurd htext (op.not_text_of_apply a b value happly)
      · cases h
  | call func args =>
      simp only [eval] at h
      obtain ⟨_, _, -, h⟩ := exists_of_bind_eq_ok h
      obtain ⟨values, _, -, h⟩ := exists_of_bind_eq_ok h
      have hnot {result : Call.Result}
          (hperform : Call.perform (Text.lowercase func) values setting.length = .ok result) :
          result.1.type ≠ .text := by
        obtain ⟨function, -, haccepts, happly⟩ := Call.exists_of_perform hperform
        exact Call.not_text_of_apply haccepts result happly
      unfold call at h
      split at h
      · rename_i hperform
        cases h
        exact absurd htext (hnot hperform)
      · rename_i hperform
        cases h
        exact absurd htext (hnot hperform)
      · cases h

-- Trees that are all evaluated to texts leave nothing but the count of one
-- operation each.
theorem eq_of_evalAll_texts {nodes : List Ir.Node} (hpure : Ir.Node.assignedAll nodes = [])
    {machine next : Machine σ} {values : List Value}
    (h : setting.evalAll nodes machine = .ok values next)
    (htexts : ∀ value ∈ values, value.type = .text) :
    next = { machine with operations := machine.operations + nodes.length } := by
  induction nodes generalizing machine values with
  | nil =>
      cases h
      rfl
  | cons node rest ih =>
      rw [Ir.Node.assignedAll, List.append_eq_nil_iff] at hpure
      rw [evalAll] at h
      obtain ⟨value, between, hnode, h⟩ := exists_of_bind_eq_ok h
      obtain ⟨others, last, hrest, h⟩ := exists_of_bind_eq_ok h
      cases h
      obtain ⟨htext, htexts⟩ := List.forall_mem_cons.mp htexts
      rw [ih hpure.2 hrest htexts, eq_of_eval_text hpure.1 hnode htext, List.length_cons]
      congr 1
      simp only
      omega

end Setting

-- A machine that has drawn nothing beside one that may have: the same names are
-- bound to the same values, the same events are kept, and no more operations are
-- counted.
structure Machine.Undrawn (machine bare : Machine Journal) : Prop where
  context : bare.context = machine.context
  kept : bare.kept = ⟨[], machine.kept.events⟩
  operations : bare.operations ≤ machine.operations

-- What may happen on the one side only.
theorem Machine.Undrawn.ahead {machine bare next : Machine Journal} (h : machine.Undrawn bare)
    (hcontext : next.context = machine.context) (hevents : next.kept.events = machine.kept.events)
    (hoperations : machine.operations ≤ next.operations) : next.Undrawn bare where
  context := h.context.trans hcontext.symm
  kept := by rw [h.kept, hevents]
  operations := Nat.le_trans h.operations hoperations

-- Where the first step succeeds so does the second one, with the same value.
structure Echoes (result result' : EStateM.Result RuntimeError (Machine Journal) α) : Prop where
  exists_ok : ∀ value next, result = .ok value next →
    ∃ last, result' = .ok value last ∧ next.Undrawn last

theorem Echoes.error {e : RuntimeError} {machine : Machine Journal}
    {result : EStateM.Result RuntimeError (Machine Journal) α} :
    Echoes (.error e machine) result :=
  ⟨nofun⟩

theorem Echoes.ok {machine bare : Machine Journal} (value : α) (h : machine.Undrawn bare) :
    Echoes (.ok value machine) (.ok value bare) := by
  refine ⟨fun _ _ heq => ?_⟩
  cases heq
  exact ⟨bare, rfl, h⟩

theorem Echoes.bind {x x' : Step Journal α} {f f' : α → Step Journal β}
    {machine bare : Machine Journal} (hx : Echoes (x machine) (x' bare))
    (hf : ∀ value next last, next.Undrawn last → Echoes (f value next) (f' value last)) :
    Echoes ((x >>= f) machine) ((x' >>= f') bare) := by
  refine ⟨fun result next hresult => ?_⟩
  obtain ⟨value, between, hvalue, hnext⟩ := exists_of_bind_eq_ok hresult
  obtain ⟨last, hlast, hundrawn⟩ := hx.exists_ok value between hvalue
  rw [bind_of_ok hlast]
  exact (hf value between last hundrawn).exists_ok result next hnext

namespace Setting

variable {setting : Setting Journal} {machine bare : Machine Journal}

theorem echoes_tick (h : machine.Undrawn bare) :
    Echoes (setting.tick machine) (setting.tick bare) := by
  refine ⟨fun _ next htick => ?_⟩
  obtain ⟨rfl, hfew⟩ := eq_of_tick_eq_ok htick
  have hoperations := h.operations
  exact ⟨_, setting.tick_of_le (by omega), h.context, h.kept, Nat.succ_le_succ hoperations⟩

theorem echoes_lookup (name : String) (h : machine.Undrawn bare) :
    Echoes (lookup name machine) (lookup name bare) := by
  unfold lookup
  rw [h.context]
  cases machine.context.get? name with
  | none => exact .error
  | some value => exact .ok value h

theorem echoes_bind (name : String) (value : Value) (h : machine.Undrawn bare) :
    Echoes (Setting.bind name value machine) (Setting.bind name value bare) :=
  .ok value ⟨congrArg (Bindings.set · name value) h.context, h.kept, h.operations⟩

theorem echoes_operate (op : Operator) (left right : Value) (h : machine.Undrawn bare) :
    Echoes (operate op left right machine) (operate op left right bare) := by
  unfold operate
  cases op.apply left right with
  | error e => exact .error
  | ok value => exact .ok value h

-- What is kept of a call that does not draw is an event, if anything.
theorem echoes_call (hchannel : setting.channel = .journal) {func : String}
    (hdraws : Ir.Node.draws func = false) (values : List Value) (h : machine.Undrawn bare) :
    Echoes (setting.call (Text.lowercase func) values machine)
      (setting.call (Text.lowercase func) values bare) := by
  unfold call
  cases hperform : Call.perform (Text.lowercase func) values setting.length with
  | error e => exact .error
  | ok result =>
      obtain ⟨function, hfunction, hleaves⟩ := Call.leavesRecord_perform hperform
      have hgroup : function.group ≠ .visual := by
        simpa [Ir.Node.draws, hfunction] using hdraws
      obtain ⟨value, _ | record⟩ := result
      · exact .ok value h
      · rw [← hleaves.maker_eq rfl] at hgroup
        obtain ⟨event, rfl⟩ := Record.exists_event hgroup
        refine .ok value ⟨h.context, ?_, h.operations⟩
        simp only [hchannel, h.kept]
        rfl

theorem undrawn_of_call (hchannel : setting.channel = .journal) {func : String}
    (hdraws : Ir.Node.draws func = true) {values : List Value} {next : Machine Journal}
    {value : Value}
    (h : setting.call (Text.lowercase func) values machine = .ok value next) :
    (∃ others, values = value :: others ∧ ∀ other ∈ others, other.type = .text) ∧
      next.context = machine.context ∧ next.kept.events = machine.kept.events ∧
      next.operations = machine.operations := by
  unfold call at h
  split at h
  · rename_i hperform
    cases h
    exact ⟨(Call.exists_of_perform_of_draws hdraws hperform).1, rfl, rfl, rfl⟩
  · rename_i record hperform
    cases h
    obtain ⟨hothers, hplots⟩ := Call.exists_of_perform_of_draws hdraws hperform
    obtain ⟨plot, rfl⟩ := hplots record rfl
    exact ⟨hothers, rfl, by rw [hchannel]; rfl, rfl⟩
  · cases h

-- Beside a call that draws, its first argument on its own.
theorem echoes_eval_of_draws (hchannel : setting.channel = .journal) {func : String}
    (hdraws : Ir.Node.draws func = true) {args : List Ir.Node} {node : Ir.Node}
    (hpure : Ir.Node.assignedAll args = [])
    (hnode : ∀ first ∈ args.head?, ∀ machine bare : Machine Journal, machine.Undrawn bare →
      Echoes (setting.eval first machine) (setting.eval node bare))
    (h : machine.Undrawn bare) :
    Echoes (setting.eval (.call func args) machine) (setting.eval node bare) := by
  refine ⟨fun value next hstep => ?_⟩
  rw [eval] at hstep
  obtain ⟨_, counted, htick, hstep⟩ := exists_of_bind_eq_ok hstep
  obtain ⟨values, before, hargs, hcall⟩ := exists_of_bind_eq_ok hstep
  obtain ⟨⟨others, rfl, htexts⟩, hcontext, hevents, hoperations⟩ :=
    undrawn_of_call hchannel hdraws hcall
  cases args with
  | nil => cases hargs
  | cons first rest =>
      rw [evalAll] at hargs
      obtain ⟨value', between, hfirst, hargs⟩ := exists_of_bind_eq_ok hargs
      obtain ⟨others', last, hrest, hargs⟩ := exists_of_bind_eq_ok hargs
      cases hargs
      rw [Ir.Node.assignedAll, List.append_eq_nil_iff] at hpure
      have hbefore := eq_of_evalAll_texts hpure.2 hrest htexts
      have hcounted : counted.Undrawn bare := by
        rw [(eq_of_tick_eq_ok htick).1]
        exact h.ahead rfl rfl (Nat.le_succ _)
      obtain ⟨bareNext, hbare, hbetween⟩ :=
        (hnode first rfl counted bare hcounted).exists_ok value between hfirst
      refine ⟨bareNext, hbare, hbetween.ahead ?_ ?_ ?_⟩
      · rw [hcontext, hbefore]
      · rw [hevents, hbefore]
      · rw [hoperations, hbefore]
        exact Nat.le_add_right _ _

mutual

-- From operand to operand and from argument to argument. A call that draws is
-- replaced as a whole, with its count and its other arguments.
theorem echoes_eval (hchannel : setting.channel = .journal) : ∀ (node : Ir.Node),
    node.assigned = [] → ∀ {machine bare : Machine Journal}, machine.Undrawn bare →
    Echoes (setting.eval node machine) (setting.eval node.undrawn bare)
  | .const c, _, machine, bare, h => by
    rw [Ir.Node.undrawn, eval]
    exact (echoes_tick h).bind fun _ _ _ h => .ok _ h
  | .var name, _, machine, bare, h => by
    rw [Ir.Node.undrawn, eval]
    exact (echoes_tick h).bind fun _ _ _ h => echoes_lookup name h
  | .assign name node, hpure, machine, bare, h => by
    simp [Ir.Node.assigned] at hpure
  | .binary op left right, hpure, machine, bare, h => by
    rw [Ir.Node.assigned, List.append_eq_nil_iff] at hpure
    rw [Ir.Node.undrawn, eval, eval]
    refine (echoes_tick h).bind fun _ _ _ h => ?_
    refine (echoes_eval hchannel left hpure.1 h).bind fun a _ _ h => ?_
    exact (echoes_eval hchannel right hpure.2 h).bind fun b _ _ h => echoes_operate op a b h
  | .call func args, hpure, machine, bare, h => by
    rw [Ir.Node.assigned] at hpure
    cases hdraws : Ir.Node.draws func with
    | false =>
        simp only [Ir.Node.undrawn, hdraws, Bool.false_eq_true, if_false]
        rw [eval, eval]
        refine (echoes_tick h).bind fun _ _ _ h => ?_
        refine (echoes_evalAll hchannel args hpure h).bind fun values _ _ h => ?_
        exact echoes_call hchannel hdraws values h
    | true =>
        simp only [Ir.Node.undrawn, hdraws, if_true]
        refine echoes_eval_of_draws hchannel hdraws hpure (fun first hfirst machine bare h => ?_) h
        cases args with
        | nil => cases hfirst
        | cons node rest =>
            rw [Ir.Node.assignedAll, List.append_eq_nil_iff] at hpure
            rw [← Option.some.inj hfirst, Ir.Node.undrawnAll, List.headD_cons]
            exact echoes_eval hchannel node hpure.1 h

theorem echoes_evalAll (hchannel : setting.channel = .journal) : ∀ (nodes : List Ir.Node),
    Ir.Node.assignedAll nodes = [] → ∀ {machine bare : Machine Journal}, machine.Undrawn bare →
    Echoes (setting.evalAll nodes machine) (setting.evalAll (Ir.Node.undrawnAll nodes) bare)
  | [], _, machine, bare, h => .ok [] h
  | node :: rest, hpure, machine, bare, h => by
    rw [Ir.Node.assignedAll, List.append_eq_nil_iff] at hpure
    rw [Ir.Node.undrawnAll, evalAll, evalAll]
    refine (echoes_eval hchannel node hpure.1 h).bind fun value _ _ h => ?_
    exact (echoes_evalAll hchannel rest hpure.2 h).bind fun values _ _ h => .ok (value :: values) h

end

theorem echoes_statement (hchannel : setting.channel = .journal) {node : Ir.Node}
    (hpure : node.body.assigned = []) (h : machine.Undrawn bare) :
    Echoes (setting.eval node machine) (setting.eval node.undrawn bare) := by
  cases node with
  | assign name value =>
      rw [Ir.Node.undrawn, eval, eval]
      refine (echoes_tick h).bind fun _ _ _ h => ?_
      exact (echoes_eval hchannel value hpure h).bind fun result _ _ h => echoes_bind name result h
  | _ => exact echoes_eval hchannel _ hpure h

-- From statement to statement. Both runs look at the clock at the same times.
theorem resultFrom_run_undrawn (setting : Setting Journal) (hchannel : setting.channel = .journal)
    (clock : Nat → Nat) (begun count : Nat) {nodes : List Ir.Node}
    (hflat : ∀ node ∈ nodes, node.body.assigned = []) (h : machine.Undrawn bare) {operations : Nat}
    (hok : ((setting.run begun nodes machine).resultFrom clock count).result = .ok operations) :
    let full := (setting.run begun nodes machine).resultFrom clock count
    ∃ fewer ≤ operations,
      (setting.run begun (Ir.Node.undrawnAll nodes) bare).resultFrom clock count =
        ⟨.ok fewer, full.context, ⟨[], full.kept.events⟩⟩ := by
  intro full
  induction nodes generalizing machine bare count with
  | nil =>
      cases hok
      refine ⟨bare.operations, h.operations, ?_⟩
      simp only [full, Ir.Node.undrawnAll, run, Timed.resultFrom, Machine.outcome, h.context,
        h.kept]
  | cons node rest ih =>
      obtain ⟨hnode, hrest⟩ := List.forall_mem_cons.mp hflat
      simp only [full, Ir.Node.undrawnAll, run] at hok ⊢
      cases hstep : setting.eval node machine with
      | error e next =>
          rw [hstep] at hok
          cases hok
      | ok value next =>
          obtain ⟨last, hlast, hnext⟩ :=
            (echoes_statement hchannel hnode h).exists_ok value next hstep
          simp only [hstep, hlast, Timed.resultFrom] at hok ⊢
          cases htime : setting.limits.checkElapsed (clock count - begun) with
          | error e =>
              rw [htime] at hok
              cases hok
          | ok _ =>
              rw [htime] at hok
              exact ih (count + 1) hrest hnext hok

end Setting

-- Nothing that is drawn has a part in what a strategy does. Where a run
-- succeeds, so does the run of the program whose calls that draw are replaced by
-- their first arguments, with no more operations, under the same clock and under
-- any other that does not stop it. It leaves the same context and the same events,
-- and no plots.
theorem runJournal_undrawn (limits : Limits) {program : Ir.Program} (hflat : program.Flat)
    (context : Context) (clock : Nat → Nat) {count : Nat}
    (hok : ((runJournal limits program context).result clock).result = .ok count) :
    let full := (runJournal limits program context).result clock
    let bare clock := (runJournal limits program.undrawn context).result clock
    ∃ fewer ≤ count, bare clock = ⟨.ok fewer, full.context, ⟨[], full.kept.events⟩⟩ ∧
      ∀ clock', (bare clock').endsOn .executionTime = false → bare clock' = bare clock := by
  intro full bare
  have hcount : context.candleCount ≤ limits.maxSeriesLength := by
    by_contra hlong
    rw [runJournal, result_execute_of_lt _ _ _ _ _ _ (Nat.not_le.mp hlong)] at hok
    cases hok
  have hfull : full = _ :=
    result_execute_of_le .journal limits program context ⟨[], []⟩ clock hcount
  have hbare : bare clock = _ :=
    result_execute_of_le .journal limits program.undrawn context ⟨[], []⟩ clock hcount
  have hstart : Machine.Undrawn ⟨context, ⟨[], []⟩, 0⟩ ⟨context, ⟨[], []⟩, 0⟩ :=
    ⟨rfl, rfl, Nat.le_refl 0⟩
  obtain ⟨fewer, hfewer, hrun⟩ := Setting.resultFrom_run_undrawn
    ⟨.journal, limits, context.candleCount⟩ rfl clock (clock 0) 1 hflat hstart
    ((congrArg Outcome.result hfull).symm.trans hok)
  have hresult : bare clock = ⟨.ok fewer, full.context, ⟨[], full.kept.events⟩⟩ := by
    rw [hbare, hfull]
    exact hrun
  refine ⟨fewer, hfewer, hresult, fun clock' htime' => ?_⟩
  have htime : (bare clock).endsOn .executionTime = false := by
    rw [hresult]
    rfl
  exact (result_execute _ _ _ _ _ _ htime').trans (result_execute _ _ _ _ _ _ htime).symm

-- Draws inside an indicator, and twice inside the condition of an entry, with a
-- title that is bound in front of both.
def drawnInsideProgram : Ir.Program :=
  ⟨[.assign "t" (.const (.text "T")),
    .assign "x" (.call "sma" [.call "PLOT" [.var "close", .var "t"], .const (.number 2.0)]),
    .call "strategy.entry" [.const (.text "L"), .const (.text "buy"),
      .call "bgColor" [.call "plotshape"
        [.binary .gt (.var "close") (.var "x"), .var "t"], .var "t"]]]⟩

-- Of three plots none is left, and of 18 operations 12.
theorem runJournal_undrawn_inside :
    let context := Bindings.empty.set "close" (.series [some 1.0, some 2.0])
    let full := (runJournal .standard drawnInsideProgram context).result fun _ => 0
    let bare clock := (runJournal .standard drawnInsideProgram.undrawn context).result clock
    drawnInsideProgram.Flat ∧ full.result = .ok 18 ∧ full.kept.plots.length = 3 ∧
      full.kept.events.length = 1 ∧ (bare fun _ => 0).result = .ok 12 ∧
      ∃ fewer ≤ 18, (bare fun _ => 0) = ⟨.ok fewer, full.context, ⟨[], full.kept.events⟩⟩ ∧
        ∀ clock, (bare clock).endsOn .executionTime = false →
          bare clock = bare fun _ => 0 := by
  have hflat : drawnInsideProgram.Flat := by
    simp [drawnInsideProgram, Ir.Program.Flat, Ir.Node.body, Ir.Node.assigned,
      Ir.Node.assignedAll]
  dsimp only
  refine ⟨hflat, ?_, ?_, ?_, ?_, runJournal_undrawn .standard hflat _ _ ?_⟩ <;> decide +kernel

end CandleScript
