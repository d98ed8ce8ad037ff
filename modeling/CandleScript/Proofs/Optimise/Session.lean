import CandleScript.Proofs.Analysis.Targets
import CandleScript.Proofs.Optimise.Meaning
import CandleScript.Proofs.Run.Ceiling

namespace CandleScript

open Ir (Constants lowerAll)

variable {σ : Type}

-- The second script is lowered with what is known at the end of the first one.
theorem Ir.lowerAll_append (optimize : Bool) (known : Constants) (p q : Script) :
    (lowerAll optimize known (p ++ q)).1 =
      (lowerAll optimize known p).1 ++ (lowerAll optimize (lowerAll optimize known p).2 q).1 := by
  induction p generalizing known with
  | nil => rfl
  | cons node rest ih =>
      simp only [List.cons_append, lowerAll]
      rw [ih]

theorem Setting.walk_append (setting : Setting σ) (xs ys : List Ir.Node) (machine : Machine σ) :
    setting.walk (xs ++ ys) machine =
      match setting.evalAll xs machine with
      | .ok _ next => setting.walk ys next
      | .error e next => next.outcome (.error e) := by
  induction xs generalizing machine with
  | nil => rfl
  | cons node rest ih =>
      rw [List.cons_append, walk, evalAll]
      cases hnode : setting.eval node machine with
      | error e next => rw [bind_of_error hnode]
      | ok value next =>
          rw [bind_of_ok hnode]
          simp only
          rw [ih]
          cases hrest : setting.evalAll rest next with
          | error e last => rw [bind_of_error hrest]
          | ok values last =>
              rw [bind_of_ok hrest]
              rfl

-- The error that ended a run.
def Outcome.failure? (outcome : Outcome σ) : Option RuntimeError :=
  match outcome.result with
  | .ok _ => none
  | .error e => some e

-- Outcomes that differ at most by their counts of operations.
structure Outcome.Alike (one other : Outcome σ) : Prop where
  context : one.context = other.context
  kept : one.kept = other.kept
  failure : one.failure? = other.failure?

theorem Outcome.Alike.refl (outcome : Outcome σ) : outcome.Alike outcome := ⟨rfl, rfl, rfl⟩

theorem Outcome.NoWorse.failure?_eq {fast slow : Outcome σ} (h : fast.NoWorse slow) :
    fast.failure? = slow.failure? := by
  have hresult := h.result
  unfold failure?
  cases hslow : slow.result with
  | ok count =>
      rw [hslow] at hresult
      obtain ⟨fewer, -, hfast⟩ := hresult
      rw [hfast]
  | error e =>
      rw [hslow] at hresult
      rw [hresult]

theorem Outcome.NoWorse.alike {one other slow : Outcome σ} (h : one.NoWorse slow)
    (h' : other.NoWorse slow) : one.Alike other :=
  ⟨h.context.trans h'.context.symm, h.kept.trans h'.kept.symm,
    h.failure?_eq.trans h'.failure?_eq.symm⟩

-- Goes on where a run ended, unless it failed.
def Outcome.andThen (first : Outcome σ) (next : Context → σ → Outcome σ) : Outcome σ :=
  match first.result with
  | .ok _ => next first.context first.kept
  | .error _ => first

theorem Outcome.endsOn_of_andThen {first : Outcome σ} {next : Context → σ → Outcome σ}
    {kind : Limit.Kind} (h : (first.andThen next).endsOn kind = false) :
    first.endsOn kind = false := by
  cases hfirst : first.result with
  | ok count => rw [endsOn, hfirst]
  | error e =>
      rw [andThen, hfirst] at h
      exact h

namespace Setting

variable (setting : Setting σ)

-- What is known of the constants when a script has been lowered holds when it
-- has been run. The plain program, with operations to spare, tells.
theorem hold_of_evalAll (script : Script) {known : Constants} {machine next : Machine σ}
    {values : List Value} (hknown : known.Hold machine.context)
    (h : setting.evalAll (lowerAll true known script).1 machine = .ok values next) :
    (lowerAll true known script).2.Hold next.context := by
  let plain := (lowerAll false .empty script).1
  let most := setting.limits.maxOperations + machine.operations + Ir.Node.sizeAll plain
  have hmost : setting.limits.maxOperations ≤ most := by omega
  have hfew : machine.operations + Ir.Node.sizeAll plain ≤
      (setting.allowing most).limits.maxOperations := by
    change _ ≤ most
    omega
  have hfollows := (setting.allowing most).evalAll_lower script .empty known machine machine
    ⟨rfl, rfl, Nat.le_refl _⟩ hknown
  rw [setting.evalAll_allowing hmost h] at hfollows
  rcases Follows.of_ok hfollows with ⟨e, last, hplain, hout⟩ | ⟨last, -, hlead, hlast⟩
  · have hleft := (setting.allowing most).not_runsOut_of_le hfew
    rw [hplain] at hleft
    exact absurd hout hleft
  · rw [hlead.context]
    exact hlast

-- It makes no difference how much of what holds was known when a script was
-- lowered.
theorem alike_lowerAll (script : Script) {known known' : Constants} {one other : Machine σ}
    (hcontext : one.context = other.context) (hkept : one.kept = other.kept)
    (hknown : known.Hold one.context) (hknown' : known'.Hold one.context)
    (hops : (setting.walk (lowerAll true known script).1 one).endsOn .operations = false)
    (hops' : (setting.walk (lowerAll true known' script).1 other).endsOn .operations = false) :
    (setting.walk (lowerAll true known script).1 one).Alike
      (setting.walk (lowerAll true known' script).1 other) := by
  let plain := (lowerAll false .empty script).1
  let slow : Machine σ := { one with operations := one.operations + other.operations }
  let most := setting.limits.maxOperations + slow.operations + Ir.Node.sizeAll plain
  have hmost : setting.limits.maxOperations ≤ most := by omega
  have hfew : slow.operations + Ir.Node.sizeAll plain ≤
      (setting.allowing most).limits.maxOperations := by
    change _ ≤ most
    omega
  have hplain := (setting.allowing most).endsOn_walk_of_le hfew
  have hone := walk_lowerAll (setting.allowing most) script .empty known slow one
    ⟨rfl, rfl, Nat.le_add_right _ _⟩ hknown hplain
  have hother := walk_lowerAll (setting.allowing most) script .empty known' slow other
    ⟨hcontext.symm, hkept.symm, Nat.le_add_left _ _⟩ hknown' hplain
  rw [setting.walk_allowing hmost hops] at hone
  rw [setting.walk_allowing hmost hops'] at hother
  exact hone.alike hother

-- A script that does not assign the close leaves the number of candles.
theorem candleCount_of_evalAll {script : Script} (hclose : "close" ∉ Node.assignedAll script)
    {known : Constants} {machine next : Machine σ} {values : List Value}
    (h : setting.evalAll (lowerAll true known script).1 machine = .ok values next) :
    next.context.candleCount = machine.context.candleCount := by
  rw [← Ir.assignedAll_lowerAll true known] at hclose
  have hleaves := setting.leaves_evalAll _ (Context.stable_get? hclose _) machine rfl
  rw [h] at hleaves
  rw [Context.candleCount, hleaves, Context.candleCount]

end Setting

-- A session equals one script. Two scripts that are compiled on their own and
-- run one after the other, on one context and with one channel, leave behind
-- what their concatenation leaves, and end like it. Runs that a clock stops or
-- that run out of operations are left aside.
theorem execute_compile_append (channel : Channel σ) (limits : Limits) (p q : Script)
    (hclose : "close" ∉ Node.assignedAll p) (context : Context) (start : σ)
    (clock clock' clock'' : Nat → Nat) :
    let joint := (execute channel limits (Ir.compile true (p ++ q)) context start).result clock
    let session := ((execute channel limits (Ir.compile true p) context start).result
      clock').andThen fun context kept =>
        (execute channel limits (Ir.compile true q) context kept).result clock''
    joint.endsOn .operations = false → joint.endsOn .executionTime = false →
      session.endsOn .operations = false → session.endsOn .executionTime = false →
      joint.Alike session := by
  intro joint session hops htime hops' htime'
  by_cases hcount : context.candleCount ≤ limits.maxSeriesLength
  · let setting : Setting σ := ⟨channel, limits, context.candleCount⟩
    let lowered := lowerAll true .empty p
    have hjoint : joint = setting.walk (lowered.1 ++ (lowerAll true lowered.2 q).1)
        ⟨context, start, 0⟩ := by
      rw [← Ir.lowerAll_append]
      exact (result_execute _ _ _ _ _ _ htime).trans (executeUntimed_of_le _ _ _ _ _ hcount)
    have hfirst : (execute channel limits (Ir.compile true p) context start).result clock' =
        setting.walk lowered.1 ⟨context, start, 0⟩ :=
      (result_execute _ _ _ _ _ _ (Outcome.endsOn_of_andThen htime')).trans
        (executeUntimed_of_le _ _ _ _ _ hcount)
    simp only [session, hfirst, Setting.walk_eq] at hops' htime' ⊢
    rw [hjoint, Setting.walk_append] at hops ⊢
    cases hend : setting.evalAll lowered.1 ⟨context, start, 0⟩ with
    | error e next => exact .refl _
    | ok values next =>
        simp only [hend, Machine.outcome, Outcome.andThen] at hops hops' htime' ⊢
        have hlength : next.context.candleCount = context.candleCount :=
          setting.candleCount_of_evalAll hclose hend
        have hsecond := (result_execute _ _ _ _ _ _ htime').trans
          (executeUntimed_of_le channel limits (Ir.compile true q) next.context next.kept
            (hlength ▸ hcount))
        rw [hsecond, hlength] at hops' ⊢
        exact setting.alike_lowerAll q rfl rfl
          (setting.hold_of_evalAll p (Constants.hold_empty context) hend)
          (Constants.hold_empty next.context) hops hops'
  · have hlong := Nat.not_le.mp hcount
    have hjoint : joint = _ := result_execute_of_lt _ _ _ _ _ _ hlong
    simp only [session, hjoint, result_execute_of_lt _ _ _ _ _ _ hlong]
    exact .refl _

-- `x = 2`, and then `plot(close * x)`, wherever they stand in a source text.
def constantScript (span : Span) : Script := [.assign "x" (.number 2.0 span) span]

def doubledScript (span : Span) : Script :=
  [.call "plot" [.binary .mul (.name "close" span) (.name "x" span) span] span]

-- Together the number is in the program; apart it is read from the context.
theorem execute_compile_append_doubled :
    let span := Span.spanning .start 1
    let context := Bindings.empty.set "close" (.series [some 3.0])
    let run script context kept := (execute .journal .standard (Ir.compile true script) context
      kept).result fun _ => 0
    let joint := run (constantScript span ++ doubledScript span) context ⟨[], []⟩
    let session := (run (constantScript span) context ⟨[], []⟩).andThen (run (doubledScript span))
    "close" ∉ Node.assignedAll (constantScript span) ∧
      joint.endsOn .operations = false ∧ joint.endsOn .executionTime = false ∧
      session.endsOn .operations = false ∧ session.endsOn .executionTime = false ∧
      joint.Alike session ∧
      session.kept.plots = [⟨"Plot", "#2962FF", .line, .series [some 6.0]⟩] := by
  intro span context run joint session
  have hclose : "close" ∉ Node.assignedAll (constantScript span) := by decide
  exact ⟨hclose, rfl, rfl, rfl, rfl,
    execute_compile_append .journal .standard (constantScript span) (doubledScript span) hclose
      context ⟨[], []⟩ (fun _ => 0) (fun _ => 0) (fun _ => 0) rfl rfl rfl rfl, rfl⟩

end CandleScript
