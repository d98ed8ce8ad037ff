import CandleScript.Proofs.Run.Delivery
import CandleScript.Proofs.Run.Frame
import CandleScript.Proofs.Run.Sinks

namespace CandleScript

variable {σ α β : Type}

namespace Ir.Node

mutual

-- The names that a tree looks up, in the order of evaluation.
def reads : Node → List String
  | assign _ value => value.reads
  | binary _ left right => left.reads ++ right.reads
  | call _ args => readsAll args
  | var name => [name]
  | const _ => []

def readsAll : List Node → List String
  | [] => []
  | node :: rest => node.reads ++ readsAll rest

end

end Ir.Node

namespace Context

-- Binds names one after the other.
def bindAll (context : Context) (bound : List (String × Value)) : Context :=
  bound.foldl (fun context entry => context.set entry.1 entry.2) context

-- Both contexts bind the given names to the same values, if to any.
def SameOn (names : List String) (context context' : Context) : Prop :=
  ∀ name ∈ names, context.get? name = context'.get? name

theorem bindAll_append (context : Context) (bound later : List (String × Value)) :
    context.bindAll (bound ++ later) = (context.bindAll bound).bindAll later :=
  List.foldl_append

theorem SameOn.of_append {names names' : List String} {context context' : Context}
    (h : SameOn (names ++ names') context context') :
    SameOn names context context' ∧ SameOn names' context context' := by
  constructor
  · intro name hname
    exact h name (List.mem_append_left _ hname)
  · intro name hname
    exact h name (List.mem_append_right _ hname)

theorem SameOn.bindAll {names : List String} {context context' : Context}
    (h : SameOn names context context') (bound : List (String × Value)) :
    SameOn names (context.bindAll bound) (context'.bindAll bound) := by
  induction bound generalizing context context' with
  | nil => exact h
  | cons entry rest ih =>
      apply ih
      intro name hname
      rw [Bindings.get?_set, Bindings.get?_set, h name hname]

theorem get?_bindAll_of_notMem {bound : List (String × Value)} {name : String}
    (h : name ∉ bound.map Prod.fst) (context : Context) :
    (context.bindAll bound).get? name = context.get? name := by
  induction bound generalizing context with
  | nil => rfl
  | cons entry rest ih =>
      rw [List.map_cons, List.mem_cons, not_or] at h
      exact (ih h.2 (context.set entry.1 entry.2)).trans
        ((context.get?_set _ _ _).trans (if_neg (Ne.symm h.1)))

end Context

-- What a step does to the machine it works on: the names it binds and the
-- records it hands over, both in their order, and the operations it counts.
structure Effect where
  bound : List (String × Value)
  records : List Record
  operations : Nat

namespace Effect

def none : Effect := ⟨[], [], 0⟩

def andThen (effect later : Effect) : Effect :=
  ⟨effect.bound ++ later.bound, effect.records ++ later.records,
    effect.operations + later.operations⟩

def on (channel : Channel σ) (effect : Effect) (machine : Machine σ) : Machine σ :=
  ⟨machine.context.bindAll effect.bound, channel.deliverAll effect.records machine.kept,
    machine.operations + effect.operations⟩

theorem on_andThen (channel : Channel σ) (effect later : Effect) (machine : Machine σ) :
    (effect.andThen later).on channel machine = later.on channel (effect.on channel machine) := by
  simp only [on, andThen, Context.bindAll_append, Channel.deliverAll, List.foldl_append,
    Nat.add_assoc]

end Effect

-- What a step touches: the names it looks up and those it binds, the functions
-- whose calls leave a record, and the number of operations.
structure Footprint where
  reads : List String
  assigned : List String
  makers : List Builtin
  size : Nat

namespace Footprint

def none : Footprint := ⟨[], [], [], 0⟩

def counted : Footprint := ⟨[], [], [], 1⟩

def both (footprint later : Footprint) : Footprint :=
  ⟨footprint.reads ++ later.reads, footprint.assigned ++ later.assigned,
    footprint.makers ++ later.makers, footprint.size + later.size⟩

theorem both_none (footprint : Footprint) : footprint.both none = footprint := by
  simp [both, none]

end Footprint

def Ir.Node.footprint (node : Node) : Footprint :=
  ⟨node.reads, node.assigned, node.sinks.map Sink.function, node.size⟩

def Ir.Node.footprintAll (nodes : List Node) : Footprint :=
  ⟨readsAll nodes, assignedAll nodes, (sinksAll nodes).map Sink.function, sizeAll nodes⟩

-- An effect that stays within a footprint.
structure Effect.Fits (effect : Effect) (footprint : Footprint) : Prop where
  bound : effect.bound.map Prod.fst = footprint.assigned
  records : effect.records.map Record.maker = footprint.makers
  operations : effect.operations = footprint.size

theorem Effect.Fits.of_records {records : List Record} {makers : List Builtin}
    (h : records.map Record.maker = makers) : Fits ⟨[], records, 0⟩ ⟨[], [], makers, 0⟩ :=
  ⟨rfl, h, rfl⟩

theorem Effect.Fits.andThen {effect later : Effect} {footprint footprint' : Footprint}
    (h : effect.Fits footprint) (hlater : later.Fits footprint') :
    (effect.andThen later).Fits (footprint.both footprint') where
  bound := by simp only [Effect.andThen, Footprint.both, List.map_append, h.bound, hlater.bound]
  records := by
    simp only [Effect.andThen, Footprint.both, List.map_append, h.records, hlater.records]
  operations := congrArg₂ (· + ·) h.operations hlater.operations

namespace Setting

-- A step that has one value and one effect wherever the given names are bound as
-- in the context and there are operations enough.
def Does (setting : Setting σ) (names : List String) (context : Context) (x : Step σ α)
    (value : α) (effect : Effect) : Prop :=
  ∀ machine : Machine σ, machine.context.SameOn names context →
    machine.operations + effect.operations ≤ setting.limits.maxOperations →
    x machine = .ok value (effect.on setting.channel machine)

variable {setting : Setting σ}

theorem Does.bind {names names' : List String} {context : Context} {x : Step σ α}
    {f : α → Step σ β} {value : α} {result : β} {effect later : Effect}
    (hx : setting.Does names context x value effect)
    (hf : setting.Does names' (context.bindAll effect.bound) (f value) result later) :
    setting.Does (names ++ names') context (x >>= f) result (effect.andThen later) := by
  intro machine hsame hfew
  have hsum : machine.operations + effect.operations + later.operations ≤
      setting.limits.maxOperations := by
    rw [Nat.add_assoc]
    exact hfew
  obtain ⟨hfirst, hsecond⟩ := hsame.of_append
  rw [bind_of_ok (hx machine hfirst (by omega)), Effect.on_andThen]
  exact hf _ (hsecond.bindAll effect.bound) hsum

-- A step that, where it succeeds, leaves an effect within the footprint, and
-- would do so from any other machine that agrees on the names that are looked up.
def Within (setting : Setting σ) (footprint : Footprint) (x : Step σ α) : Prop :=
  ∀ machine value next, x machine = .ok value next →
    ∃ effect : Effect, effect.Fits footprint ∧ next = effect.on setting.channel machine ∧
      setting.Does footprint.reads machine.context x value effect

theorem Within.bind {footprint later : Footprint} {x : Step σ α} {f : α → Step σ β}
    (hx : setting.Within footprint x) (hf : ∀ value, setting.Within later (f value)) :
    setting.Within (footprint.both later) (x >>= f) := by
  intro machine result last h
  obtain ⟨value, next, hvalue, hresult⟩ := exists_of_bind_eq_ok h
  obtain ⟨effect, hfits, rfl, hdoes⟩ := hx machine value next hvalue
  obtain ⟨effect', hfits', rfl, hdoes'⟩ := hf value _ result last hresult
  exact ⟨effect.andThen effect', hfits.andThen hfits',
    (Effect.on_andThen _ _ _ _).symm, hdoes.bind hdoes'⟩

-- The same where what follows touches nothing.
theorem Within.before {footprint : Footprint} {x : Step σ α} {f : α → Step σ β}
    (hx : setting.Within footprint x) (hf : ∀ value, setting.Within .none (f value)) :
    setting.Within footprint (x >>= f) := by
  rw [← footprint.both_none]
  exact hx.bind hf

theorem within_pure (value : α) : setting.Within .none (pure value) := by
  rintro machine _ _ ⟨⟩
  exact ⟨.none, ⟨rfl, rfl, rfl⟩, rfl, fun _ _ _ => rfl⟩

theorem within_tick : setting.Within .counted setting.tick := by
  rintro machine ⟨⟩ next h
  obtain ⟨rfl, -⟩ := eq_of_tick_eq_ok h
  exact ⟨⟨[], [], 1⟩, ⟨rfl, rfl, rfl⟩, rfl, fun _ _ hfew => setting.tick_of_le hfew⟩

theorem within_lookup (name : String) : setting.Within ⟨[name], [], [], 0⟩ (lookup name) := by
  intro machine value next h
  unfold lookup at h
  split at h
  · rename_i hfound
    cases h
    refine ⟨.none, ⟨rfl, rfl, rfl⟩, rfl, fun other hsame _ => ?_⟩
    rw [lookup, (hsame name (List.mem_singleton_self name)).trans hfound]
    rfl
  · cases h

theorem within_bind (name : String) (value : Value) :
    setting.Within ⟨[], [name], [], 0⟩ (Setting.bind name value) := by
  rintro machine _ _ ⟨⟩
  exact ⟨⟨[(name, value)], [], 0⟩, ⟨rfl, rfl, rfl⟩, rfl, fun _ _ _ => rfl⟩

theorem within_operate (op : Operator) (left right : Value) :
    setting.Within .none (operate op left right) := by
  intro machine value next h
  unfold operate at h
  split at h
  · rename_i happly
    cases h
    refine ⟨.none, ⟨rfl, rfl, rfl⟩, rfl, fun other _ _ => ?_⟩
    rw [operate, happly]
    rfl
  · cases h

-- A call of a sink leaves one record, any other none.
theorem map_maker_toList_of_perform {func : String} {values : List Value} {length : Nat}
    {result : Call.Result} (h : Call.perform (Text.lowercase func) values length = .ok result)
    (args : List Ir.Node) :
    result.2.toList.map Record.maker = (Ir.Node.ownSink func args).map Sink.function := by
  obtain ⟨function, hfunction, hleaves⟩ := Call.leavesRecord_perform h
  rw [Call.LeavesRecord] at hleaves
  rw [← Option.toList_map, hleaves, Ir.Node.ownSink, hfunction]
  cases hsink : function.isSink <;> simp [hsink]

theorem within_call (func : String) (args : List Ir.Node) (values : List Value) :
    setting.Within ⟨[], [], (Ir.Node.ownSink func args).map Sink.function, 0⟩
      (setting.call (Text.lowercase func) values) := by
  intro machine value next h
  cases hperform : Call.perform (Text.lowercase func) values setting.length with
  | error e =>
      rw [call, hperform] at h
      cases h
  | ok result =>
      let effect : Effect := ⟨[], result.2.toList, 0⟩
      have hfits : effect.Fits ⟨[], [], (Ir.Node.ownSink func args).map Sink.function, 0⟩ :=
        .of_records (map_maker_toList_of_perform hperform args)
      have hcall (other : Machine σ) :
          setting.call (Text.lowercase func) values other =
            .ok result.1 (effect.on setting.channel other) := by
        obtain ⟨_, _ | _⟩ := result <;> rw [call, hperform] <;> rfl
      rw [hcall] at h
      cases h
      exact ⟨effect, hfits, rfl, fun other _ _ => hcall other⟩

end Setting

namespace Ir.Node

theorem footprint_assign (name : String) (value : Node) :
    (assign name value).footprint =
      Footprint.counted.both (value.footprint.both ⟨[], [name], [], 0⟩) := by
  simp [footprint, Footprint.both, Footprint.counted, reads, assigned, sinks, size]

theorem footprint_binary (op : Operator) (left right : Node) :
    (binary op left right).footprint =
      Footprint.counted.both (left.footprint.both right.footprint) := by
  simp [footprint, Footprint.both, Footprint.counted, reads, assigned, sinks, size, Nat.add_assoc]

theorem footprint_call (func : String) (args : List Node) :
    (call func args).footprint = Footprint.counted.both
      ((footprintAll args).both ⟨[], [], (ownSink func args).map Sink.function, 0⟩) := by
  simp [footprint, footprintAll, Footprint.both, Footprint.counted, reads, assigned, sinks, size]

theorem footprintAll_cons (node : Node) (rest : List Node) :
    footprintAll (node :: rest) = node.footprint.both (footprintAll rest) := by
  simp [footprint, footprintAll, Footprint.both, readsAll, assignedAll, sinksAll, sizeAll]

end Ir.Node

namespace Setting

variable {setting : Setting σ}

mutual

-- Induction on the tree: whatever a node does is told by the names it looks up.
theorem within_eval : ∀ node : Ir.Node, setting.Within node.footprint (setting.eval node)
  | .const c => by
    rw [eval]
    exact within_tick.before fun _ => within_pure _
  | .var name => by
    rw [eval]
    exact within_tick.bind fun _ => within_lookup name
  | .assign name node => by
    rw [eval, Ir.Node.footprint_assign]
    apply within_tick.bind
    intro _
    exact (within_eval node).bind fun value => within_bind name value
  | .binary op left right => by
    rw [eval, Ir.Node.footprint_binary]
    apply within_tick.bind
    intro _
    apply (within_eval left).bind
    intro a
    exact (within_eval right).before fun b => within_operate op a b
  | .call func args => by
    rw [eval, Ir.Node.footprint_call]
    apply within_tick.bind
    intro _
    exact (within_evalAll args).bind fun values => within_call func args values

theorem within_evalAll : ∀ nodes : List Ir.Node,
    setting.Within (Ir.Node.footprintAll nodes) (setting.evalAll nodes)
  | [] => within_pure _
  | node :: rest => by
    rw [evalAll, Ir.Node.footprintAll_cons]
    apply (within_eval node).bind
    intro value
    exact (within_evalAll rest).before fun values => within_pure _

end

end Setting

end CandleScript
