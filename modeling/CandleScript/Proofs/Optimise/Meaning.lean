import CandleScript.Proofs.Optimise.Fold
import CandleScript.Proofs.Run.Step
import CandleScript.Proofs.Run.Untimed

namespace CandleScript

open Ir (Constants)

variable {σ α β : Type}

-- A machine in the same state that has counted no more operations.
structure Machine.Leads (fast slow : Machine σ) : Prop where
  context : fast.context = slow.context
  kept : fast.kept = slow.kept
  operations : fast.operations ≤ slow.operations

-- What the optimised run has to give where the plain run gives its result:
-- the same, unless the plain run is out of operations. Afterwards the known
-- constants still hold, and `holds` is what is known of the value.
def Follows (known : Constants) (holds : α → Prop) :
    EStateM.Result RuntimeError (Machine σ) α → EStateM.Result RuntimeError (Machine σ) α → Prop
  | .ok value slow, result =>
    (∃ fast : Machine σ, result = .ok value fast ∧ fast.Leads slow) ∧
      known.Hold slow.context ∧ holds value
  | .error e slow, result =>
    e.exceeds .operations = true ∨ ∃ fast : Machine σ, result = .error e fast ∧ fast.Leads slow

theorem Follows.bind {known later : Constants} {holds : α → Prop} {holds' : β → Prop}
    {x y : Step σ α} {f g : α → Step σ β} {slow fast : Machine σ}
    (hx : Follows known holds (x slow) (y fast))
    (hf : ∀ value (slow fast : Machine σ), fast.Leads slow → known.Hold slow.context →
      holds value → Follows later holds' (f value slow) (g value fast)) :
    Follows later holds' ((x >>= f) slow) ((y >>= g) fast) := by
  cases hslow : x slow with
  | ok value next =>
      rw [hslow] at hx
      obtain ⟨⟨other, hother, hlead⟩, hknown, hvalue⟩ := hx
      rw [bind_of_ok hslow, bind_of_ok hother]
      exact hf value next other hlead hknown hvalue
  | error e next =>
      rw [hslow] at hx
      rw [bind_of_error hslow]
      rcases hx with hout | ⟨other, hother, hlead⟩
      · exact .inl hout
      · rw [bind_of_error hother]
        exact .inr ⟨other, rfl, hlead⟩

theorem follows_tick (setting : Setting σ) {known : Constants} {slow fast : Machine σ}
    (hlead : fast.Leads slow) (hknown : known.Hold slow.context) :
    Follows known (fun _ => True) (setting.tick slow) (setting.tick fast) := by
  have hcount := hlead.operations
  by_cases hmany : setting.limits.maxOperations < slow.operations + 1
  · rw [setting.tick_of_lt hmany]
    exact .inl rfl
  · rw [setting.tick_of_le (by omega), setting.tick_of_le (by omega)]
    exact ⟨⟨_, rfl, hlead.context, hlead.kept, Nat.succ_le_succ hcount⟩, hknown, trivial⟩

theorem follows_pure {known : Constants} {holds : α → Prop} {slow fast : Machine σ}
    (hlead : fast.Leads slow) (hknown : known.Hold slow.context) {value : α} (hvalue : holds value) :
    Follows known holds ((pure value : Step σ α) slow) ((pure value : Step σ α) fast) :=
  ⟨⟨fast, rfl, hlead⟩, hknown, hvalue⟩

theorem follows_operate (op : Operator) (left right : Value) {known : Constants}
    {slow fast : Machine σ} (hlead : fast.Leads slow) (hknown : known.Hold slow.context) :
    Follows known (fun _ => True) (Setting.operate op left right slow)
      (Setting.operate op left right fast) := by
  unfold Setting.operate
  cases op.apply left right with
  | ok value => exact ⟨⟨fast, rfl, hlead⟩, hknown, trivial⟩
  | error e => exact .inr ⟨fast, rfl, hlead⟩

theorem follows_call (setting : Setting σ) (func : String) (values : List Value)
    {known : Constants} {slow fast : Machine σ} (hlead : fast.Leads slow)
    (hknown : known.Hold slow.context) :
    Follows known (fun _ => True) (setting.call func values slow)
      (setting.call func values fast) := by
  unfold Setting.call
  rcases Call.perform func values setting.length with e | ⟨value, _ | record⟩
  · exact .inr ⟨fast, rfl, hlead⟩
  · exact ⟨⟨fast, rfl, hlead⟩, hknown, trivial⟩
  · exact ⟨⟨_, rfl, hlead.context, by rw [hlead.kept], hlead.operations⟩, hknown, trivial⟩

-- What a lowered node that is a constant promises of its value.
def Ir.Node.Gives (node : Ir.Node) (value : Value) : Prop :=
  ∀ c, node.constant? = some c → value = .ofConstant c

theorem follows_bind (name : String) {node : Ir.Node} {value : Value} (hvalue : node.Gives value)
    {known : Constants} {slow fast : Machine σ} (hlead : fast.Leads slow)
    (hknown : known.Hold slow.context) :
    Follows (known.assign true name node) (fun _ => True) (Setting.bind name value slow)
      (Setting.bind name value fast) := by
  have hcontext : fast.context.set name value = slow.context.set name value := by
    rw [hlead.context]
  exact ⟨⟨_, rfl, hcontext, hlead.kept, hlead.operations⟩, hknown.assign name hvalue, trivial⟩

-- A value that no constant stands for promises nothing.
theorem Follows.forget {known : Constants} {node : Ir.Node} (hnode : node.constant? = none)
    {slow fast : EStateM.Result RuntimeError (Machine σ) Value}
    (h : Follows known (fun _ => True) slow fast) : Follows known node.Gives slow fast := by
  cases slow with
  | ok value next =>
      refine ⟨h.1, h.2.1, ?_⟩
      intro c hc
      rw [hnode] at hc
      cases hc
  | error e next => exact h

namespace Setting

open Ir (lower lowerAll lowerBinary lowerName foldNodes)

-- A run that follows a success is one, unless the operations ran out.
theorem Follows.of_ok {known : Constants} {holds : α → Prop} {value : α} {fast : Machine σ}
    {slow : EStateM.Result RuntimeError (Machine σ) α}
    (h : Follows known holds slow (.ok value fast)) :
    (∃ e next, slow = .error e next ∧ e.exceeds .operations = true) ∨
      ∃ next : Machine σ, slow = .ok value next ∧ fast.Leads next ∧ known.Hold next.context := by
  cases slow with
  | ok found next =>
      obtain ⟨⟨other, hother, hlead⟩, hknown, -⟩ := h
      cases hother
      exact .inr ⟨next, rfl, hlead, hknown⟩
  | error e next =>
      rcases h with hout | ⟨other, hother, -⟩
      · exact .inl ⟨e, next, rfl, hout⟩
      · cases hother

-- A folded operation takes one step. Its operands are constants, so the plain
-- run evaluates them without leaving a trace, and counts at least as much.
theorem follows_folded (setting : Setting σ) {op : Operator} {left right : Ir.Node} {a b : Float}
    {c : Ir.Constant} (hfold : Ir.foldNumbers op a b = some c) {known known₁ known₂ : Constants}
    {slow fast : Machine σ} (hlead : fast.Leads slow) (hknown : known.Hold slow.context)
    (hleft : ∀ slow : Machine σ, fast.Leads slow → known.Hold slow.context →
      Follows known₁ (Ir.Node.const (.number a)).Gives (setting.eval left slow)
        (setting.eval (.const (.number a)) fast))
    (hright : ∀ slow : Machine σ, fast.Leads slow → known₁.Hold slow.context →
      Follows known₂ (Ir.Node.const (.number b)).Gives (setting.eval right slow)
        (setting.eval (.const (.number b)) fast)) :
    Follows known₂ (Ir.Node.const c).Gives (setting.eval (.binary op left right) slow)
      (setting.eval (.const c) fast) := by
  rw [eval.eq_4]
  by_cases hmany : setting.limits.maxOperations < slow.operations + 1
  · rw [bind_of_error (setting.tick_of_lt hmany)]
    exact .inl rfl
  have hfew := Nat.not_lt.mp hmany
  have hfast : fast.operations + 1 ≤ setting.limits.maxOperations :=
    Nat.le_trans (Nat.succ_le_succ hlead.operations) hfew
  simp only [setting.eval_const_of_le _ hfast] at hleft hright ⊢
  rw [bind_of_ok (setting.tick_of_le hfew)]
  -- the operands, one after the other, from a machine that `fast` still leads
  have hbehind : ∀ next : Machine σ,
      Machine.Leads { fast with operations := fast.operations + 1 } next → fast.Leads next :=
    fun next h => ⟨h.context, h.kept, Nat.le_of_succ_le h.operations⟩
  obtain ⟨e, next, hstop, hout⟩ | ⟨first, hfirst, hlead₁, hknown₁⟩ :=
    Follows.of_ok (hleft { slow with operations := slow.operations + 1 }
      ⟨hlead.context, hlead.kept, Nat.le_succ_of_le hlead.operations⟩ hknown)
  · rw [bind_of_error hstop]
    exact .inl hout
  rw [bind_of_ok hfirst]
  obtain ⟨e, next, hstop, hout⟩ | ⟨second, hsecond, hlead₂, hknown₂⟩ :=
    Follows.of_ok (hright first (hbehind first hlead₁) hknown₁)
  · rw [bind_of_error hstop]
    exact .inl hout
  rw [bind_of_ok hsecond]
  have hresult : op.apply (.number a) (.number b) = .ok (.ofConstant c) :=
    Ir.onNumbers_of_foldNumbers hfold
  simp only [operate, Value.ofConstant, hresult]
  refine ⟨⟨_, rfl, hlead₂⟩, hknown₂, ?_⟩
  intro d hd
  cases hd
  rfl

mutual

-- Induction on the script: both lowerings of a node, run from machines that
-- agree, where the table of the optimising one holds.
theorem eval_lower (setting : Setting σ) : ∀ (node : Node) (other known : Constants)
    (slow fast : Machine σ), fast.Leads slow → known.Hold slow.context →
    Follows (lower true known node).2 (lower true known node).1.Gives
      (setting.eval (lower false other node).1 slow) (setting.eval (lower true known node).1 fast)
  | .number value _, other, known, slow, fast, hlead, hknown => by
    simp only [lower, eval]
    apply (follows_tick setting hlead hknown).bind
    intro _ slow fast hlead hknown _
    exact follows_pure hlead hknown fun c hc => by cases hc; rfl
  | .text value _, other, known, slow, fast, hlead, hknown => by
    simp only [lower, eval]
    apply (follows_tick setting hlead hknown).bind
    intro _ slow fast hlead hknown _
    exact follows_pure hlead hknown fun c hc => by cases hc; rfl
  | .name name _, other, known, slow, fast, hlead, hknown => by
    simp only [lower, Ir.lowerName_false]
    cases hfound : known.get? name with
    | none =>
        simp only [lowerName, hfound, eval]
        apply Follows.forget rfl
        apply (follows_tick setting hlead hknown).bind
        intro _ slow fast hlead hknown _
        unfold lookup
        rw [hlead.context]
        cases slow.context.get? name with
        | none => exact .inr ⟨fast, rfl, hlead⟩
        | some value => exact ⟨⟨fast, rfl, hlead⟩, hknown, trivial⟩
    | some c =>
        simp only [lowerName, hfound, if_true, eval]
        apply (follows_tick setting hlead hknown).bind
        intro _ slow fast hlead hknown _
        simp only [lookup, hknown name c hfound]
        refine ⟨⟨fast, rfl, hlead⟩, hknown, ?_⟩
        intro d hd
        cases hd
        rfl
  | .assign name value _, other, known, slow, fast, hlead, hknown => by
    simp only [lower, eval]
    apply Follows.forget rfl
    apply (follows_tick setting hlead hknown).bind
    intro _ slow fast hlead hknown _
    apply (setting.eval_lower value other known slow fast hlead hknown).bind
    intro found slow fast hlead hknown hfound
    exact follows_bind name hfound hlead hknown
  | .binary op left right _, other, known, slow, fast, hlead, hknown => by
    have hleft := setting.eval_lower left other known
    have hright := setting.eval_lower right (lower false other left).2 (lower true known left).2
    simp only [lower, Ir.lowerBinary_false]
    cases hfold : foldNodes op (lower true known left).1
        (lower true (lower true known left).2 right).1 with
    | none =>
        simp only [lowerBinary, hfold, eval]
        apply Follows.forget rfl
        apply (follows_tick setting hlead hknown).bind
        intro _ slow fast hlead hknown _
        apply (hleft slow fast hlead hknown).bind
        intro a slow fast hlead hknown _
        apply (hright slow fast hlead hknown).bind
        intro b slow fast hlead hknown _
        exact follows_operate op a b hlead hknown
    | some c =>
        obtain ⟨a, b, ha, hb, hnumbers⟩ := Ir.numbers_of_foldNodes hfold
        simp only [lowerBinary, hfold, if_true]
        rw [ha] at hleft
        rw [hb] at hright
        exact setting.follows_folded hnumbers hlead hknown
          (fun slow hlead hknown => hleft slow fast hlead hknown)
          (fun slow hlead hknown => hright slow fast hlead hknown)
  | .call callee args _, other, known, slow, fast, hlead, hknown => by
    simp only [lower]
    generalize Text.lowercase callee = func
    simp only [eval]
    generalize Text.lowercase func = name
    apply Follows.forget rfl
    apply (follows_tick setting hlead hknown).bind
    intro _ slow fast hlead hknown _
    apply (setting.evalAll_lower args other known slow fast hlead hknown).bind
    intro values slow fast hlead hknown _
    exact follows_call setting name values hlead hknown

theorem evalAll_lower (setting : Setting σ) : ∀ (nodes : List Node) (other known : Constants)
    (slow fast : Machine σ), fast.Leads slow → known.Hold slow.context →
    Follows (lowerAll true known nodes).2 (fun _ => True)
      (setting.evalAll (lowerAll false other nodes).1 slow)
      (setting.evalAll (lowerAll true known nodes).1 fast)
  | [], other, known, slow, fast, hlead, hknown => follows_pure hlead hknown trivial
  | node :: rest, other, known, slow, fast, hlead, hknown => by
    simp only [lowerAll, evalAll]
    apply (setting.eval_lower node other known slow fast hlead hknown).bind
    intro value slow fast hlead hknown _
    apply (setting.evalAll_lower rest _ _ slow fast hlead hknown).bind
    intro values slow fast hlead hknown _
    exact follows_pure hlead hknown trivial

end

end Setting

-- An outcome that differs from another one at most by a smaller count of
-- operations.
structure Outcome.NoWorse (fast slow : Outcome σ) : Prop where
  context : fast.context = slow.context
  kept : fast.kept = slow.kept
  result : match slow.result with
    | .ok count => ∃ fewer ≤ count, fast.result = .ok fewer
    | .error e => fast.result = .error e

-- Statement by statement the optimised program keeps up with the plain one.
theorem walk_lowerAll (setting : Setting σ) (script : Script) (other known : Constants)
    (slow fast : Machine σ) (hlead : fast.Leads slow) (hknown : known.Hold slow.context)
    (hops : (setting.walk (Ir.lowerAll false other script).1 slow).endsOn .operations = false) :
    (setting.walk (Ir.lowerAll true known script).1 fast).NoWorse
      (setting.walk (Ir.lowerAll false other script).1 slow) := by
  induction script generalizing other known slow fast with
  | nil => exact ⟨hlead.context, hlead.kept, fast.operations, hlead.operations, rfl⟩
  | cons node rest ih =>
      have hnode := setting.eval_lower node other known slow fast hlead hknown
      simp only [Ir.lowerAll, Setting.walk] at hops ⊢
      cases hslow : setting.eval (Ir.lower false other node).1 slow with
      | ok value next =>
          simp only [hslow] at hnode hops ⊢
          obtain ⟨⟨ahead, hahead, hlead⟩, hknown, -⟩ := hnode
          simp only [hahead]
          exact ih _ _ next ahead hlead hknown hops
      | error e next =>
          simp only [hslow] at hnode hops ⊢
          rcases hnode with hout | ⟨ahead, hahead, hlead⟩
          · simp [Machine.outcome, Outcome.endsOn, hout] at hops
          · simp only [hahead]
            exact ⟨hlead.context, hlead.kept, rfl⟩

-- Optimisation preserves meaning. Both programs of a script leave the same
-- bindings and records behind and end alike, and the optimised one does not
-- take more operations. Runs that a clock stops are left aside, and so are
-- plain ones that run out of operations.
theorem execute_compile_noWorse (channel : Channel σ) (limits : Limits) (script : Script)
    (context : Context) (start : σ) (clock clock' : Nat → Nat)
    (hops : ((execute channel limits (Ir.compile false script) context start).result clock).endsOn
      .operations = false)
    (htime : ((execute channel limits (Ir.compile false script) context start).result clock).endsOn
      .executionTime = false)
    (htime' : ((execute channel limits (Ir.compile true script) context start).result clock').endsOn
      .executionTime = false) :
    ((execute channel limits (Ir.compile true script) context start).result clock').NoWorse
      ((execute channel limits (Ir.compile false script) context start).result clock) := by
  rw [result_execute _ _ _ _ _ _ htime] at hops ⊢
  rw [result_execute _ _ _ _ _ _ htime']
  unfold executeUntimed at hops ⊢
  cases hinput : limits.checkInput context.candleCount with
  | error e => exact ⟨rfl, rfl, rfl⟩
  | ok _ =>
      simp only [hinput] at hops ⊢
      exact walk_lowerAll _ script _ _ _ _ ⟨rfl, rfl, Nat.le_refl _⟩
        (Constants.hold_empty context) hops

-- `x = 2 + 3` and `y = x * x`, wherever they stand in a source text.
def squareScript (span : Span) : Script :=
  [.assign "x" (.binary .add (.number 2.0 span) (.number 3.0 span) span) span,
    .assign "y" (.binary .mul (.name "x" span) (.name "x" span) span) span]

-- Four operations instead of eight.
theorem execute_compile_square :
    let run optimize := (runJournal .standard
      (Ir.compile optimize (squareScript (.spanning .start 1))) .empty).result fun _ => 0
    (run true).result = .ok 4 ∧ (run false).result = .ok 8 ∧ (run true).NoWorse (run false) :=
  ⟨rfl, rfl, execute_compile_noWorse .journal .standard (squareScript (.spanning .start 1)) .empty
    ⟨[], []⟩ (fun _ => 0) (fun _ => 0) rfl rfl rfl⟩

end CandleScript
