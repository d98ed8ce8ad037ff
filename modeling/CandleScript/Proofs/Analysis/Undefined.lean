import CandleScript.Proofs.Analysis.Scope
import CandleScript.Proofs.Run.Ends
import CandleScript.Run.Engine

namespace CandleScript

open Analysis (Scope Describes visit visitAll)
open Ir (Constants lower lowerAll)

variable {σ α β : Type}

-- A step ends as the findings at its place say: without one of a missing name
-- it leaves a context as described, and if it fails, they foretell it.
def Foretold (found : Diagnostics) (scope : Scope) (known : Constants) :
    EStateM.Result RuntimeError (Machine σ) α → Prop :=
  Ends (fun _ next => found.undefined? = none ∧ Describes scope known next.context) found.Foretell

theorem Foretold.prepend {found more : Diagnostics} {scope : Scope} {known : Constants}
    {result : EStateM.Result RuntimeError (Machine σ) α} (h : Foretold more scope known result)
    (hfound : found.undefined? = none) : Foretold (found ++ more) scope known result := by
  apply h.mono
  · rintro _ _ ⟨hmore, hnext⟩
    exact ⟨by rw [Diagnostics.undefined?_append, hfound, hmore, Option.or_none], hnext⟩
  · intro e he
    exact he.append_right hfound

theorem Foretold.bind {found more : Diagnostics} {scope scope' : Scope} {known known' : Constants}
    {x : Step σ α} {f : α → Step σ β} {machine : Machine σ}
    (hx : Foretold found scope known (x machine))
    (hf : ∀ value next, Describes scope known next.context →
      Foretold more scope' known' (f value next)) :
    Foretold (found ++ more) scope' known' ((x >>= f) machine) := by
  have hleft := hx.mono (fun _ _ => id) fun _ he => he.append_left more
  apply Ends.bind hleft
  rintro value next ⟨hnone, hnext⟩
  exact (hf value next hnext).prepend hnone

-- The same where the first step can not miss a name.
theorem Foretold.after {found : Diagnostics} {scope scope' : Scope} {known known' : Constants}
    {x : Step σ α} {f : α → Step σ β} {machine : Machine σ}
    (hx : Foretold [] scope known (x machine))
    (hf : ∀ value next, Describes scope known next.context →
      Foretold found scope' known' (f value next)) :
    Foretold found scope' known' ((x >>= f) machine) :=
  hx.bind hf

-- The same where the last step can not miss one.
theorem Foretold.before {found : Diagnostics} {scope scope' : Scope} {known known' : Constants}
    {x : Step σ α} {f : α → Step σ β} {machine : Machine σ}
    (hx : Foretold found scope known (x machine))
    (hf : ∀ value next, Describes scope known next.context →
      Foretold [] scope' known' (f value next)) :
    Foretold found scope' known' ((x >>= f) machine) := by
  rw [← List.append_nil found]
  exact hx.bind hf

-- Steps that neither bind nor look for a name.
theorem foretold_of_ends {x : EStateM.Result RuntimeError (Machine σ) α} {machine : Machine σ}
    {scope : Scope} {known : Constants} (hm : Describes scope known machine.context)
    (h : Ends (fun _ next => next.context = machine.context)
      (fun e => ∀ name, e ≠ .undefinedVariable name) x) : Foretold [] scope known x := by
  apply h.mono
  · intro _ next hnext
    exact ⟨rfl, hnext ▸ hm⟩
  · intro e he name hname
    exact absurd hname (he name)

namespace Setting

section

variable (setting : Setting σ) {machine : Machine σ} {scope : Scope} {known : Constants}
  (hm : Describes scope known machine.context)

include hm

theorem foretold_tick : Foretold [] scope known (setting.tick machine) := by
  apply foretold_of_ends hm
  apply (setting.ends_tick machine fun _ => nofun).mono _ fun _ => id
  rintro _ next ⟨rfl, -⟩
  rfl

theorem foretold_operate (op : Operator) (left right : Value) :
    Foretold [] scope known (operate op left right machine) := by
  apply foretold_of_ends hm
  apply (ends_operate op left right machine _).mono _ fun _ => id
  · rintro e he name rfl
    cases he
  · rintro _ next rfl
    rfl

theorem foretold_call (func : String) (values : List Value) :
    Foretold [] scope known (setting.call func values machine) := by
  apply foretold_of_ends hm
  apply (setting.ends_call func values machine _).mono _ fun _ => id
  · rintro e he name rfl
    cases he
  · rintro _ next ⟨kept, rfl⟩
    rfl

theorem foretold_const {found : Diagnostics} (hfound : found.undefined? = none) (c : Ir.Constant) :
    Foretold found scope known (setting.eval (.const c) machine) := by
  rw [eval]
  apply (setting.foretold_tick hm).after
  intro _ next hnext
  exact ⟨hfound, hnext⟩

theorem foretold_var {name : String} {span : Span}
    (hvalid : (Analysis.checkName scope name span).hasErrors = false) :
    Foretold (Analysis.checkName scope name span) scope known
      (setting.eval (.var name) machine) := by
  rw [eval]
  apply (setting.foretold_tick hm).after
  intro _ next hnext
  unfold lookup
  split
  · rename_i value hvalue
    exact ⟨Analysis.undefined?_checkName_of_bound hnext (by rw [hvalue]; rfl) span, hnext⟩
  · rename_i hunbound
    rintro _ ⟨⟩
    exact ⟨_, Analysis.undefined?_checkName_of_unbound hnext hunbound hvalid, rfl⟩

-- A name keeps its finding, even where its constant stands for it: that is only
-- known of a bound name.
theorem foretold_lowerName (optimize : Bool) {name : String} {span : Span}
    (hvalid : (Analysis.checkName scope name span).hasErrors = false) :
    Foretold (Analysis.checkName scope name span) scope known
      (setting.eval (Ir.lowerName known optimize name) machine) := by
  unfold Ir.lowerName
  split
  · rename_i c hknown
    have hbound := hm.known name (by rw [hknown]; rfl)
    split
    · exact setting.foretold_const hm (Analysis.undefined?_checkName_of_bound hm hbound span) c
    · exact setting.foretold_var hm hvalid
  · exact setting.foretold_var hm hvalid

theorem foretold_binary (op : Operator) {left right : Ir.Node} {found more : Diagnostics}
    {scope₁ scope₂ : Scope} {known₁ known₂ : Constants}
    (hleft : ∀ machine : Machine σ, Describes scope known machine.context →
      Foretold found scope₁ known₁ (setting.eval left machine))
    (hright : ∀ machine : Machine σ, Describes scope₁ known₁ machine.context →
      Foretold more scope₂ known₂ (setting.eval right machine)) :
    Foretold (found ++ more) scope₂ known₂ (setting.eval (.binary op left right) machine) := by
  rw [eval]
  apply (setting.foretold_tick hm).after
  intro _ next hnext
  apply (hleft next hnext).bind
  intro a next hnext
  apply (hright next hnext).before
  intro b next hnext
  exact foretold_operate hnext op a b

omit hm

-- A folded operation takes the place of two constants. Each of them could be
-- evaluated here, so that the findings about both are settled.
theorem foretold_folded {a b c : Ir.Constant} {found more : Diagnostics} {scope₁ scope₂ : Scope}
    {known₁ known₂ : Constants}
    (hleft : Foretold found scope₁ known₁ (setting.eval (.const a) machine))
    (hright : Describes scope₁ known₁ machine.context →
      Foretold more scope₂ known₂ (setting.eval (.const b) machine)) :
    Foretold (found ++ more) scope₂ known₂ (setting.eval (.const c) machine) := by
  by_cases hmany : setting.limits.maxOperations < machine.operations + 1
  · rw [eval, bind_of_error (setting.tick_of_lt hmany)]
    rintro name ⟨⟩
  · have hfew := Nat.not_lt.mp hmany
    rw [setting.eval_const_of_le _ hfew] at hleft hright ⊢
    obtain ⟨hfound, hscope⟩ := hleft
    exact Foretold.prepend (hright hscope) hfound

include hm

theorem foretold_lowerBinary (optimize : Bool) (op : Operator) {left right : Ir.Node}
    {found more : Diagnostics} {scope₁ scope₂ : Scope} {known₁ known₂ : Constants}
    (hleft : ∀ machine : Machine σ, Describes scope known machine.context →
      Foretold found scope₁ known₁ (setting.eval left machine))
    (hright : ∀ machine : Machine σ, Describes scope₁ known₁ machine.context →
      Foretold more scope₂ known₂ (setting.eval right machine)) :
    Foretold (found ++ more) scope₂ known₂
      (setting.eval (Ir.lowerBinary optimize op left right) machine) := by
  unfold Ir.lowerBinary
  split
  · rename_i c hfold
    obtain ⟨a, b, rfl, rfl, -⟩ := Ir.numbers_of_foldNodes hfold
    split
    · exact setting.foretold_folded (hleft machine hm) (hright machine)
    · exact setting.foretold_binary hm op hleft hright
  · exact setting.foretold_binary hm op hleft hright

end

mutual

-- Induction on the script: the findings come in the order of evaluation.
theorem foretold_eval (setting : Setting σ) (optimize : Bool) : ∀ (node : Node) (scope : Scope)
    (known : Constants) (machine : Machine σ), (visit scope node).1.hasErrors = false →
    Describes scope known machine.context →
    Foretold (visit scope node).1 (visit scope node).2 (lower optimize known node).2
      (setting.eval (lower optimize known node).1 machine)
  | .number value _ | .text value _ => by
    intro scope known machine _ hm
    simp only [visit, lower]
    exact setting.foretold_const hm rfl _
  | .name name span => by
    intro scope known machine hvalid hm
    simp only [visit, lower] at hvalid ⊢
    exact setting.foretold_lowerName hm optimize hvalid
  | .assign name value span => by
    intro scope known machine hvalid hm
    simp only [visit, Diagnostics.hasErrors_append, Bool.or_eq_false_iff] at hvalid
    simp only [visit, lower, eval, Analysis.checkTarget_of_valid hvalid.2, List.append_nil]
    apply (setting.foretold_tick hm).after
    intro _ next hnext
    apply (setting.foretold_eval optimize value scope known next hvalid.1 hnext).before
    intro found next hnext
    exact ⟨rfl, hnext.assign optimize name _ _ found⟩
  | .binary op left right _ => by
    intro scope known machine hvalid hm
    simp only [visit, Diagnostics.hasErrors_append, Bool.or_eq_false_iff] at hvalid
    simp only [visit, lower]
    apply setting.foretold_lowerBinary hm optimize op
    · intro machine hm
      exact setting.foretold_eval optimize left scope known machine hvalid.1 hm
    · intro machine hm
      exact setting.foretold_eval optimize right _ _ machine hvalid.2 hm
  | .call callee args span => by
    intro scope known machine hvalid hm
    simp only [visit, Diagnostics.hasErrors_append, Bool.or_eq_false_iff] at hvalid
    simp only [visit, lower, eval]
    generalize Text.lowercase (Text.lowercase callee) = func
    apply Foretold.prepend _ (Analysis.undefined?_checkCallee callee args.length span)
    apply (setting.foretold_tick hm).after
    intro _ next hnext
    apply (setting.foretold_evalAll optimize args scope known next hvalid.2 hnext).before
    intro values next hnext
    exact setting.foretold_call hnext func values

theorem foretold_evalAll (setting : Setting σ) (optimize : Bool) : ∀ (nodes : List Node)
    (scope : Scope) (known : Constants) (machine : Machine σ),
    (visitAll scope nodes).1.hasErrors = false → Describes scope known machine.context →
    Foretold (visitAll scope nodes).1 (visitAll scope nodes).2 (lowerAll optimize known nodes).2
      (setting.evalAll (lowerAll optimize known nodes).1 machine)
  | [] => by
    intro scope known machine _ hm
    exact ⟨rfl, hm⟩
  | node :: rest => by
    intro scope known machine hvalid hm
    simp only [visitAll, Diagnostics.hasErrors_append, Bool.or_eq_false_iff] at hvalid
    simp only [visitAll, lowerAll, evalAll]
    apply (setting.foretold_eval optimize node scope known machine hvalid.1 hm).bind
    intro value next hnext
    apply (setting.foretold_evalAll optimize rest _ _ next hvalid.2 hnext).before
    intro values next hnext
    exact ⟨rfl, hnext⟩

end

end Setting

-- The findings about a whole script and the end of a run of it.
def Diagnostics.Foresee (found : Diagnostics) : Except RuntimeError Nat → Prop
  | .ok _ => found.undefined? = none
  | .error e => found.Foretell e

theorem Diagnostics.Foresee.prepend {found more : Diagnostics} {result : Except RuntimeError Nat}
    (h : more.Foresee result) (hfound : found.undefined? = none) :
    (found ++ more).Foresee result := by
  cases result with
  | ok count =>
      have hmore : more.undefined? = none := h
      rw [Diagnostics.Foresee, undefined?_append, hfound, hmore, Option.or_none]
  | error e => exact Foretell.append_right h hfound

theorem Analysis.undefined?_visitStatement (scope : Scope) (node : Node) :
    (visitStatement scope node).1.undefined? = (visit scope node).1.undefined? := by
  rw [visitStatement, Diagnostics.undefined?_append]
  split
  · exact Option.or_none
  · exact Option.or_none

theorem Setting.foresee_walk (setting : Setting σ) (optimize : Bool) (script : List Node)
    (scope : Scope) (known : Constants) (machine : Machine σ)
    (hvalid : (Analysis.visitStatements scope script).hasErrors = false)
    (hm : Describes scope known machine.context) :
    (Analysis.visitStatements scope script).Foresee
      (setting.walk (lowerAll optimize known script).1 machine).result := by
  induction script generalizing scope known machine with
  | nil => rfl
  | cons node rest ih =>
      simp only [Analysis.visitStatements, Analysis.visitStatement, Diagnostics.hasErrors_append,
        Bool.or_eq_false_iff] at hvalid
      have hnode := setting.foretold_eval optimize node scope known machine hvalid.1.1 hm
      simp only [Analysis.visitStatements, lowerAll, walk]
      cases hstep : setting.eval (lower optimize known node).1 machine with
      | ok value next =>
          rw [hstep] at hnode
          obtain ⟨hnone, hnext⟩ := hnode
          rw [← Analysis.undefined?_visitStatement] at hnone
          exact (ih _ _ next hvalid.2 hnext).prepend hnone
      | error e next =>
          rw [hstep] at hnode
          exact Diagnostics.Foretell.append_left (Diagnostics.Foretell.append_left hnode _) _

theorem foresee_execute (script : Script) (hvalid : isValid script = true) (context : Context)
    (hcontext : ∀ name, (context.get? name).isSome = isReserved name) (optimize : Bool)
    (channel : Channel σ) (limits : Limits) (start : σ) (clock : Nat → Nat) :
    (analyze script).Foresee
      ((execute channel limits (Ir.compile optimize script) context start).result clock).result := by
  rcases limitExceeded_or_walk channel limits (Ir.compile optimize script) context start clock with
    ⟨violation, hstop⟩ | hwalk
  · rw [hstop]
    rintro name ⟨⟩
  · rw [hwalk]
    rw [isValid, Bool.not_eq_true'] at hvalid
    exact Setting.foresee_walk _ optimize script .empty .empty _ hvalid
      (Analysis.describes_empty hcontext)

-- Warnings of undefined names are exact for a valid script on nothing but candle
-- data. Without one no run misses a name, with one every run fails, and the name
-- that a run misses is the one that the first of them is about.
theorem execute_compile_undefined (script : Script) (hvalid : isValid script = true)
    (context : Context) (hcontext : ∀ name, (context.get? name).isSome = isReserved name)
    (optimize : Bool) (channel : Channel σ) (limits : Limits) (start : σ) (clock : Nat → Nat) :
    let result :=
      ((execute channel limits (Ir.compile optimize script) context start).result clock).result
    ((analyze script).undefined? = none → ∀ name, result ≠ .error (.undefinedVariable name)) ∧
    ((analyze script).undefined? ≠ none → ∃ e, result = .error e) ∧
    ∀ name, result = .error (.undefinedVariable name) →
      ∃ d, (analyze script).undefined? = some d ∧
        d.message = s!"'{name}' is not defined before this point" := by
  intro result
  have hforesee : (analyze script).Foresee result :=
    foresee_execute script hvalid context hcontext optimize channel limits start clock
  refine ⟨fun hnone name hname => ?_, fun hsome => ?_, fun name hname => ?_⟩
  · rw [hname] at hforesee
    obtain ⟨d, hd, -⟩ := hforesee name rfl
    cases hnone.symm.trans hd
  · cases hresult : result with
    | ok count =>
        rw [hresult] at hforesee
        exact absurd hforesee hsome
    | error e => exact ⟨e, rfl⟩
  · rw [hname] at hforesee
    exact hforesee name rfl

-- `a = 2` and `b = (c = a) + (a = d) * e`: the name `a` gives way to its value,
-- and `d` is the first one that is missing.
def missingScript (span : Span) : Script :=
  [.assign "a" (.number 2.0 span) span,
    .assign "b" (.binary .add (.assign "c" (.name "a" span) span)
      (.binary .mul (.assign "a" (.name "d" span) span) (.name "e" span) span) span) span]

theorem execute_compile_undefined_missing :
    let script := missingScript (.spanning .start 1)
    let name := "d"
    let ended optimize := ((runJournal .standard (Ir.compile optimize script)
      (.ofBars [])).result fun _ => 0).result
    isValid script = true ∧ ended true = .error (.undefinedVariable name) ∧
      ended false = .error (.undefinedVariable name) ∧
      ∃ d, (analyze script).undefined? = some d ∧
        d.message = s!"'{name}' is not defined before this point" :=
  ⟨rfl, rfl, rfl, (execute_compile_undefined (missingScript (.spanning .start 1)) rfl (.ofBars [])
    (Context.isSome_get?_ofBars []) true .journal .standard ⟨[], []⟩ fun _ => 0).2.2 "d" rfl⟩

end CandleScript
