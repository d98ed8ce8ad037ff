import CandleScript.Proofs.Optimise.Fold
import CandleScript.Proofs.Run.Ends
import CandleScript.Run.Engine
import CandleScript.Script.Analysis

namespace CandleScript

-- The name of a function, in any letter case, and a number of arguments that
-- the function takes.
def Callable (func : String) (count : Nat) : Prop :=
  ∃ b, Builtin.lookup? func = some b ∧ b.accepts count = true

theorem Callable.lowercase {func : String} {count : Nat} (h : Callable func count) :
    Callable (Text.lowercase func) count := by
  obtain ⟨b, hlookup, haccepts⟩ := h
  exact ⟨b, Builtin.lookup?_lowercase hlookup, haccepts⟩

namespace Ir.Node

mutual

-- Every call in a tree is one of a function with arguments that it takes.
def Fits : Node → Prop
  | assign _ value => value.Fits
  | binary _ left right => left.Fits ∧ right.Fits
  | call func args => Callable func args.length ∧ AllFit args
  | var _ | const _ => True

def AllFit : List Node → Prop
  | [] => True
  | node :: rest => node.Fits ∧ AllFit rest

end

end Ir.Node

namespace Ir

theorem fits_lowerName (known : Constants) (optimize : Bool) (name : String) :
    (lowerName known optimize name).Fits := by
  unfold lowerName
  split
  · split <;> exact trivial
  · trivial

theorem fits_lowerBinary (optimize : Bool) (op : Operator) {left right : Node} (hleft : left.Fits)
    (hright : right.Fits) : (lowerBinary optimize op left right).Fits := by
  unfold lowerBinary
  split
  · split
    · trivial
    · exact ⟨hleft, hright⟩
  · exact ⟨hleft, hright⟩

end Ir

namespace Analysis

open Ir (lower lowerAll)

theorem callable_of_checkCallee {callee : String} {count : Nat} {span : Span}
    (h : (checkCallee callee count span).hasErrors = false) :
    Callable (Text.lowercase callee) count := by
  unfold checkCallee at h
  simp only at h
  split at h
  · cases h
  · split at h
    · cases h
    · rename_i b hlookup
      split at h
      · rename_i haccepts
        exact ⟨b, hlookup, haccepts⟩
      · cases h

mutual

-- Lowering keeps the calls of a tree that has passed the analysis.
theorem fits_lower (optimize : Bool) : ∀ (node : Node) (scope : Scope) (known : Ir.Constants),
    (visit scope node).1.hasErrors = false → (lower optimize known node).1.Fits
  | .assign _ value _ => by
    intro scope known h
    simp only [visit, Diagnostics.hasErrors_append, Bool.or_eq_false_iff] at h
    simp only [lower, Ir.Node.Fits]
    exact fits_lower optimize value scope known h.1
  | .binary op left right _ => by
    intro scope known h
    simp only [visit, Diagnostics.hasErrors_append, Bool.or_eq_false_iff] at h
    simp only [lower]
    exact Ir.fits_lowerBinary optimize op (fits_lower optimize left scope known h.1)
      (fits_lower optimize right _ _ h.2)
  | .call callee args _ => by
    intro scope known h
    simp only [visit, Diagnostics.hasErrors_append, Bool.or_eq_false_iff] at h
    simp only [lower, Ir.Node.Fits, Ir.length_lowerAll]
    exact ⟨callable_of_checkCallee h.1, fits_lowerAll optimize args scope known h.2⟩
  | .name name _ => by
    intro scope known _
    simp only [lower]
    exact Ir.fits_lowerName known optimize name
  | .number value _ | .text value _ => by
    intro scope known _
    simp only [lower, Ir.Node.Fits]

theorem fits_lowerAll (optimize : Bool) : ∀ (nodes : List Node) (scope : Scope)
    (known : Ir.Constants), (visitAll scope nodes).1.hasErrors = false →
    Ir.Node.AllFit (lowerAll optimize known nodes).1
  | [], _, _, _ => trivial
  | node :: rest, scope, known, h => by
    simp only [visitAll, Diagnostics.hasErrors_append, Bool.or_eq_false_iff] at h
    simp only [lowerAll, Ir.Node.AllFit]
    exact ⟨fits_lower optimize node scope known h.1, fits_lowerAll optimize rest _ _ h.2⟩

end

theorem allFit_of_visitStatements (optimize : Bool) (script : List Node) (scope : Scope)
    (known : Ir.Constants) (h : (visitStatements scope script).hasErrors = false) :
    Ir.Node.AllFit (lowerAll optimize known script).1 := by
  induction script generalizing scope known with
  | nil => trivial
  | cons node rest ih =>
      simp only [visitStatements, visitStatement, Diagnostics.hasErrors_append,
        Bool.or_eq_false_iff] at h
      simp only [lowerAll, Ir.Node.AllFit]
      exact ⟨fits_lower optimize node scope known h.1.1, ih _ _ h.2⟩

end Analysis

-- Whether an error blames a call as such: there is no function of its name, the
-- number of its arguments is wrong, or the function needs one that it has not.
def RuntimeError.blamesCall : RuntimeError → Bool
  | .unknownFunction _ | .missingArgument _ _ => true
  | .invalidArgument _ fault => fault.isCount
  | _ => false

theorem Callable.blameless {func : String} {count : Nat} (h : Callable func count)
    {e : RuntimeError} (he : Call.Refusal func count e) : e.blamesCall = false := by
  obtain ⟨b, hlookup, haccepts⟩ := h
  cases he with
  | unknown hnone => cases hlookup.symm.trans hnone
  | miscounted hsome hcount =>
      cases hlookup.symm.trans hsome
      cases haccepts.symm.trans hcount
  | unsuited hfault => exact hfault

theorem blameless_of_refusal {op : Operator} {e : RuntimeError} (he : op.Refusal e) :
    e.blamesCall = false := by
  cases he <;> rfl

namespace Setting

variable {σ : Type}

theorem blameless_tick (setting : Setting σ) (machine : Machine σ) :
    Ends (fun _ _ => True) (fun e => e.blamesCall = false) (setting.tick machine) := by
  apply (setting.ends_tick machine _).mono (fun _ _ _ => trivial) fun _ => id
  intro _
  rfl

mutual

-- Induction on the tree: each of its calls is accepted, and nothing else can
-- blame one.
theorem blameless_eval (setting : Setting σ) : ∀ node : Ir.Node, node.Fits →
    ∀ machine : Machine σ,
    Ends (fun _ _ => True) (fun e => e.blamesCall = false) (setting.eval node machine)
  | .const c => by
    intro _ machine
    rw [eval]
    apply (setting.blameless_tick machine).bind
    intro _ next _
    trivial
  | .var name => by
    intro _ machine
    rw [eval]
    apply (setting.blameless_tick machine).bind
    intro _ next _
    apply (ends_lookup name next _).mono (fun _ _ _ => trivial) fun _ => id
    intro _
    rfl
  | .assign name value => by
    intro h machine
    rw [eval]
    apply (setting.blameless_tick machine).bind
    intro _ next _
    apply (setting.blameless_eval value h next).bind
    intro _ next _
    trivial
  | .binary op left right => by
    intro h machine
    rw [eval]
    apply (setting.blameless_tick machine).bind
    intro _ next _
    apply (setting.blameless_eval left h.1 next).bind
    intro a next _
    apply (setting.blameless_eval right h.2 next).bind
    intro b next _
    exact (ends_operate op a b next fun _ => blameless_of_refusal).mono
      (fun _ _ _ => trivial) fun _ => id
  | .call func args => by
    intro h machine
    have hcallable := h.1.lowercase
    simp only [eval]
    generalize Text.lowercase func = name at hcallable
    apply (setting.blameless_tick machine).bind
    intro _ next _
    apply (setting.blameless_evalAll args h.2 next).bind
    intro values next hlength
    rw [← hlength] at hcallable
    exact (setting.ends_call name values next fun _ => hcallable.blameless).mono
      (fun _ _ _ => trivial) fun _ => id

theorem blameless_evalAll (setting : Setting σ) : ∀ nodes : List Ir.Node,
    Ir.Node.AllFit nodes → ∀ machine : Machine σ,
    Ends (fun values _ => values.length = nodes.length) (fun e => e.blamesCall = false)
      (setting.evalAll nodes machine)
  | [] => fun _ _ => rfl
  | node :: rest => by
    intro h machine
    rw [evalAll]
    apply (setting.blameless_eval node h.1 machine).bind
    intro value next _
    apply (setting.blameless_evalAll rest h.2 next).bind
    intro values next hlength
    exact congrArg Nat.succ hlength

end

theorem blameless_walk (setting : Setting σ) {nodes : List Ir.Node} (h : Ir.Node.AllFit nodes)
    (machine : Machine σ) {e : RuntimeError}
    (he : (setting.walk nodes machine).result = .error e) : e.blamesCall = false := by
  induction nodes generalizing machine with
  | nil => cases he
  | cons node rest ih =>
      have hnode := setting.blameless_eval node h.1 machine
      simp only [walk] at he
      cases hstep : setting.eval node machine with
      | ok value next =>
          simp only [hstep] at he
          exact ih h.2 next he
      | error fault next =>
          rw [hstep] at hnode he
          cases he
          exact hnode

end Setting

-- A valid script only calls functions that there are, with arguments that they
-- take. Whatever ends a run of it, in either form and under any limits, does
-- not blame a call.
theorem execute_compile_callable {σ : Type} (script : Script) (hvalid : isValid script = true)
    (optimize : Bool) (channel : Channel σ) (limits : Limits) (context : Context) (start : σ)
    (clock : Nat → Nat) (e : RuntimeError)
    (he : ((execute channel limits (Ir.compile optimize script) context start).result clock).result =
      .error e) :
    e.blamesCall = false := by
  rcases limitExceeded_or_walk channel limits (Ir.compile optimize script) context start clock with
    ⟨violation, hstop⟩ | hwalk
  · cases hstop.symm.trans he
    rfl
  · rw [hwalk] at he
    rw [isValid, Bool.not_eq_true'] at hvalid
    exact Setting.blameless_walk _
      (Analysis.allFit_of_visitStatements optimize script .empty .empty hvalid) _ he

-- `Plot(SMA(Rsi(close, 14), 0.5))`: every call is accepted, and a period is not.
def halfScript (span : Span) : Script :=
  [.call "Plot" [.call "SMA" [.call "Rsi" [.name "close" span, .number 14.0 span] span,
    .number 0.5 span] span] span]

theorem execute_compile_callable_half :
    let script := halfScript (.spanning .start 1)
    let context := Bindings.empty.set "close" (.series [some 1.0])
    let ended optimize := ((runJournal .standard (Ir.compile optimize script) context).result
      fun _ => 0).result
    let fault := RuntimeError.invalidArgument .sma (.notPeriod 0.5)
    isValid script = true ∧ ended true = .error fault ∧ ended false = .error fault ∧
      fault.blamesCall = false :=
  ⟨rfl, rfl, rfl, execute_compile_callable (halfScript (.spanning .start 1)) rfl true .journal .standard
    (Bindings.empty.set "close" (.series [some 1.0])) ⟨[], []⟩ (fun _ => 0) _ rfl⟩

end CandleScript
