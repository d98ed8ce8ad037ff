import CandleScript.Run.Call
import CandleScript.Run.Operation

namespace CandleScript

namespace Operator

-- How an operator refuses its operands.
inductive Refusal (op : Operator) : RuntimeError → Prop where
  | zero : Refusal op .divisionByZero
  | mismatch (left right : ValueType) : Refusal op (.typeMismatch op left right)

theorem refusal_of_onNumbers {op : Operator} {a b : Float} {e : RuntimeError}
    (h : op.onNumbers a b = .error e) : op.Refusal e := by
  cases op with
  | div =>
      simp only [onNumbers] at h
      split at h
      · cases h
        exact .zero
      · cases h
  | _ => cases h

theorem refusal_of_onTexts {op : Operator} {a b : String} {e : RuntimeError}
    (h : op.onTexts a b = .error e) : op.Refusal e := by
  unfold onTexts at h
  split at h <;> cases h
  exact .mismatch .text .text

theorem refusal_of_apply {op : Operator} {left right : Value} {e : RuntimeError}
    (h : op.apply left right = .error e) : op.Refusal e := by
  unfold apply at h
  split at h
  · exact refusal_of_onNumbers h
  · split at h
    · exact refusal_of_onTexts h
    · split at h <;> cases h
      exact .mismatch left.type right.type

end Operator

-- Whether a fault is about the number of arguments and not about one of them.
def ArgumentFault.isCount : ArgumentFault → Bool
  | .count _ _ => true
  | _ => false

namespace Call

variable {α β : Type} {call : Call} {index : Nat}

-- If a call is refused, then because one of its arguments does not suit it.
def Judges (call : Call) (result : Except RuntimeError α) : Prop :=
  ∀ e, result = .error e → ∃ fault, e = .invalidArgument call.function fault ∧ fault.isCount = false

theorem judges_ok (value : α) : call.Judges (.ok value) := by
  rintro e ⟨⟩

theorem judges_fail {fault : ArgumentFault} (h : fault.isCount = false) :
    call.Judges (call.fail fault : Except RuntimeError α) := by
  rintro e ⟨⟩
  exact ⟨fault, rfl, h⟩

theorem Judges.bind {result : Except RuntimeError α} (h : call.Judges result)
    {f : α → Except RuntimeError β} (hf : ∀ value, call.Judges (f value)) :
    call.Judges (result >>= f) := by
  cases result with
  | error e =>
      rintro _ ⟨⟩
      exact h e rfl
  | ok value => exact hf value

section

variable (h : index < call.values.length)

include h

theorem judges_argument : call.Judges (call.argument index) := by
  rw [argument, List.getElem?_eq_getElem h]
  exact judges_ok _

theorem judges_series : call.Judges (call.series index) := by
  apply (judges_argument h).bind
  intro value
  split
  · exact judges_ok _
  · exact judges_fail rfl

theorem judges_condition : call.Judges (call.condition index) := by
  apply (judges_argument h).bind
  intro value
  split
  · exact judges_ok _
  · exact judges_fail rfl

theorem judges_number : call.Judges (call.number index) := by
  apply (judges_argument h).bind
  intro value
  split
  · split
    · exact judges_ok _
    · exact judges_fail rfl
  · exact judges_fail rfl

theorem judges_period : call.Judges (call.period index) := by
  apply (judges_number h).bind
  intro x
  split
  · exact judges_fail rfl
  · exact judges_ok _

theorem judges_namedText (what : String) : call.Judges (call.namedText index what) := by
  apply (judges_argument h).bind
  intro value
  split
  · exact judges_ok _
  · exact judges_fail rfl

theorem judges_direction : call.Judges (call.direction index) := by
  apply (judges_namedText h _).bind
  intro text
  split
  · exact judges_ok _
  · exact judges_fail rfl

end

-- Arguments that may be left out are looked for and not counted on.
theorem judges_percentage? (index : Nat) : call.Judges (call.percentage? index) := by
  unfold percentage?
  split
  · exact judges_ok _
  · rename_i hpresent
    apply (judges_number (Nat.not_le.mp hpresent)).bind
    intro x
    split
    · exact judges_fail rfl
    · exact judges_ok _

theorem judges_textOr (index : Nat) (otherwise : String) :
    call.Judges (call.textOr index otherwise) := by
  unfold textOr
  split
  · exact judges_ok _
  · exact judges_ok _
  · exact judges_fail rfl

theorem judges_shownFirst (h : 0 < call.values.length) : call.Judges call.shownFirst := by
  apply (judges_argument h).bind
  intro value
  split
  · exact judges_ok _
  · exact judges_fail rfl

theorem judges_plotted (h : 0 < call.values.length) : call.Judges call.plotted := by
  apply (judges_argument h).bind
  intro value
  split
  · exact judges_ok _
  · exact (judges_series h).bind fun _ => judges_ok _
  · exact judges_fail rfl

theorem judges_plot (h : 0 < call.values.length) : call.Judges call.plot :=
  (judges_plotted h).bind fun _ => (judges_textOr 1 _).bind fun _ => (judges_textOr 2 _).bind fun _ =>
    (judges_argument h).bind fun _ => judges_ok _

theorem judges_plotshape (h : 0 < call.values.length) : call.Judges call.plotshape :=
  (judges_shownFirst h).bind fun _ => (judges_textOr 1 _).bind fun _ =>
    (judges_textOr 2 _).bind fun _ => (judges_condition h).bind fun _ => judges_ok _

theorem judges_bgcolor (h : 0 < call.values.length) : call.Judges call.bgcolor :=
  (judges_shownFirst h).bind fun _ => (judges_textOr 1 _).bind fun _ =>
    (judges_condition h).bind fun _ => judges_ok _

theorem judges_strategyEntry (h : 2 < call.values.length) : call.Judges call.strategyEntry :=
  (judges_namedText (by omega) _).bind fun _ => (judges_direction (by omega)).bind fun _ =>
    (judges_condition h).bind fun _ => (judges_percentage? 3).bind fun _ =>
      (judges_percentage? 4).bind fun _ => judges_ok _

theorem judges_strategyClose (h : 1 < call.values.length) : call.Judges call.strategyClose :=
  (judges_namedText (by omega) _).bind fun _ => (judges_condition h).bind fun _ => judges_ok _

theorem judges_macd (h : 3 < call.values.length) : call.Judges call.macd :=
  (judges_series (by omega)).bind fun _ => (judges_period (by omega)).bind fun _ =>
    (judges_period (by omega)).bind fun _ => (judges_period h).bind fun _ => judges_ok _

theorem judges_bollinger (h : 2 < call.values.length) : call.Judges call.bollinger :=
  (judges_series (by omega)).bind fun _ => (judges_period (by omega)).bind fun _ =>
    (judges_number h).bind fun _ => judges_ok _

-- The three prices that many indicators read first.
theorem judges_prices (h : 2 < call.values.length)
    {f : Series → Series → Series → Except RuntimeError α}
    (hf : ∀ high low close, call.Judges (f high low close)) :
    call.Judges (do f (← call.series 0) (← call.series 1) (← call.series 2)) :=
  (judges_series (by omega)).bind fun high => (judges_series (by omega)).bind fun low =>
    (judges_series h).bind fun close => hf high low close

theorem judges_stochastic (h : 5 < call.values.length) : call.Judges call.stochastic :=
  judges_prices (by omega) fun _ _ _ => (judges_period (by omega)).bind fun _ =>
    (judges_period (by omega)).bind fun _ => (judges_period h).bind fun _ => judges_ok _

theorem judges_smoothed (h : 1 < call.values.length) (f : Series → Nat → Result) :
    call.Judges (do return f (← call.series 0) (← call.period 1)) :=
  (judges_series (by omega)).bind fun _ => (judges_period h).bind fun _ => judges_ok _

theorem judges_both (h : 1 < call.values.length) (f : Series → Series → Result) :
    call.Judges (do return f (← call.series 0) (← call.series 1)) :=
  (judges_series (by omega)).bind fun _ => (judges_series h).bind fun _ => judges_ok _

-- No function looks for an argument that an accepted call may lack.
theorem judges_apply (h : call.function.arityBounds.1 ≤ call.values.length) :
    call.Judges call.apply := by
  unfold apply
  cases hfunction : call.function <;> rw [hfunction] at h
  case sma | ema | rsi => exact judges_smoothed h _
  case macd | macdSignal | macdHist => exact (judges_macd h).bind fun _ => judges_ok _
  case bbUpper | bbLower => exact (judges_bollinger h).bind fun _ => judges_ok _
  case stochK | stochD => exact (judges_stochastic h).bind fun _ => judges_ok _
  case supertrend =>
    have hcount : 4 < call.values.length := h
    exact judges_prices (by omega) fun _ _ _ => (judges_period (by omega)).bind fun _ =>
      (judges_number hcount).bind fun _ => judges_ok _
  case vwap =>
    have hcount : 3 < call.values.length := h
    exact judges_prices (by omega) fun _ _ _ => (judges_series hcount).bind fun _ => judges_ok _
  case cci =>
    have hcount : 3 < call.values.length := h
    exact judges_prices (by omega) fun _ _ _ => (judges_period hcount).bind fun _ => judges_ok _
  case mfi =>
    have hcount : 4 < call.values.length := h
    exact judges_prices (by omega) fun _ _ _ => (judges_series (by omega)).bind fun _ =>
      (judges_period hcount).bind fun _ => judges_ok _
  case obv | crossover | crossunder => exact judges_both h _
  case plot => exact judges_plot h
  case plotshape => exact judges_plotshape h
  case bgcolor => exact judges_bgcolor h
  case strategyEntry => exact judges_strategyEntry h
  case strategyClose => exact judges_strategyClose h

-- How a call by name is refused: there is no such function, the number of the
-- arguments is wrong, or one of them does not suit.
inductive Refusal (func : String) (count : Nat) : RuntimeError → Prop where
  | unknown (h : Builtin.lookup? func = none) : Refusal func count (.unknownFunction func)
  | miscounted {function : Builtin} (h : Builtin.lookup? func = some function)
    (hcount : function.accepts count = false) :
    Refusal func count (.invalidArgument function (.count function.arity count))
  | unsuited {function : Builtin} {fault : ArgumentFault} (h : fault.isCount = false) :
    Refusal func count (.invalidArgument function fault)

theorem refusal_of_perform {func : String} {values : List Value} {length : Nat} {e : RuntimeError}
    (h : perform func values length = .error e) : Refusal func values.length e := by
  unfold perform at h
  split at h
  · rename_i hnone
    cases h
    exact .unknown hnone
  · rename_i function hfunction
    split at h
    · rename_i haccepts
      rw [Builtin.accepts, Bool.and_eq_true] at haccepts
      obtain ⟨fault, rfl, hfault⟩ := judges_apply (of_decide_eq_true haccepts.1) e h
      exact .unsuited hfault
    · rename_i hrefuses
      cases h
      exact .miscounted hfunction (Bool.eq_false_iff.mpr hrefuses)

end Call

end CandleScript
