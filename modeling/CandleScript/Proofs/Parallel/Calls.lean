import CandleScript.Proofs.Parallel.Indicators
import CandleScript.Proofs.Parallel.Values
import CandleScript.Run.Call
import Mathlib.Data.List.Forall2

namespace CandleScript

open Value (Paired)

-- Records that draw or ask for the same, over paired series.
inductive Record.Paired (p : Pairing) : Record → Record → Prop where
  | plot (title color : String) (style : PlotStyle) {v w : Value} (h : Value.Paired p v w) :
    Paired p (.plot ⟨title, color, style, v⟩) (.plot ⟨title, color, style, w⟩)
  | entry (id : String) (direction : Direction) (stop profit : Option Float) {s t : List Bool}
    (h : p.lists s t) :
    Paired p (.event (.entry ⟨id, direction, s, stop, profit⟩))
      (.event (.entry ⟨id, direction, t, stop, profit⟩))
  | close (id : String) {s t : List Bool} (h : p.lists s t) :
    Paired p (.event (.close ⟨id, s⟩)) (.event (.close ⟨id, t⟩))

namespace Call

-- Calls of one function with paired arguments.
structure Paired (p : Pairing) (call call' : Call) : Prop where
  function : call.function = call'.function
  values : List.Forall₂ (Value.Paired p) call.values call'.values
  length : p.counts call.length call'.length

-- Results with paired values that leave paired records behind, if any.
structure Result.Paired (p : Pairing) (r r' : Result) : Prop where
  value : Value.Paired p r.1 r'.1
  record : Option.Rel (Record.Paired p) r.2 r'.2

variable {p : Pairing}

theorem paired_indicator {s t : Series} (h : p.lists s t) :
    Result.Paired p (indicator s) (indicator t) :=
  ⟨.series h, .none⟩

theorem paired_getElem? {values values' : List Value}
    (h : List.Forall₂ (Value.Paired p) values values') (index : Nat) :
    Option.Rel (Value.Paired p) values[index]? values'[index]? := by
  induction h generalizing index with
  | nil => exact .none
  | cons hvalue _ ih =>
      cases index with
      | zero => exact .some hvalue
      | succ index => exact ih index

namespace Paired

variable {α β : Type} {call call' : Call} (h : Paired p call call')

include h

theorem fail (together : α → β → Prop) (fault : ArgumentFault) :
    Agree together (call.fail fault) (call'.fail fault) := by
  unfold Call.fail
  rw [h.function]
  exact .error _

theorem argument (index : Nat) :
    Agree (Value.Paired p) (call.argument index) (call'.argument index) := by
  unfold Call.argument
  rcases absent_or_present (paired_getElem? h.values index) with ⟨hv, hw⟩ | ⟨v, w, hv, hw, hvalue⟩
  · simp only [hv, hw, h.function]
    exact .error _
  · simp only [hv, hw]
    exact .ok hvalue

theorem series (index : Nat) : Agree p.lists (call.series index) (call'.series index) := by
  apply (h.argument index).bind
  intro v w hvalue
  rcases absent_or_present (hvalue.toSeries? h.length) with ⟨hs, ht⟩ | ⟨s, t, hs, ht, hlists⟩
  · simp only [hs, ht]
    exact h.fail _ _
  · simp only [hs, ht]
    exact .ok hlists

theorem condition (index : Nat) :
    Agree p.lists (call.condition index) (call'.condition index) := by
  apply (h.argument index).bind
  intro v w hvalue
  rcases absent_or_present (hvalue.toBools? h.length) with ⟨hs, ht⟩ | ⟨s, t, hs, ht, hlists⟩
  · simp only [hs, ht]
    exact h.fail _ _
  · simp only [hs, ht]
    exact .ok hlists

-- Numbers and texts come out equal.
theorem number (index : Nat) : Agree Eq (call.number index) (call'.number index) := by
  apply (h.argument index).bind
  intro v w hvalue
  rw [← hvalue.number?_eq, ← hvalue.type_eq]
  cases v.number? with
  | none => exact h.fail _ _
  | some x =>
      simp only
      split
      · exact .ok rfl
      · exact h.fail _ _

theorem period (index : Nat) : Agree Eq (call.period index) (call'.period index) := by
  apply (h.number index).bind
  rintro x _ rfl
  split
  · exact h.fail _ _
  · exact .ok rfl

theorem percentage? (index : Nat) :
    Agree Eq (call.percentage? index) (call'.percentage? index) := by
  unfold Call.percentage?
  rw [h.values.length_eq]
  split
  · exact .ok rfl
  · apply (h.number index).bind
    rintro x _ rfl
    split
    · exact h.fail _ _
    · exact .ok rfl

theorem textOr (index : Nat) (otherwise : String) :
    Agree Eq (call.textOr index otherwise) (call'.textOr index otherwise) := by
  unfold Call.textOr
  rcases absent_or_present (paired_getElem? h.values index) with ⟨hv, hw⟩ | ⟨v, w, hv, hw, hvalue⟩
  · simp only [hv, hw]
    exact .ok rfl
  · simp only [hv, hw]
    cases hvalue with
    | text s => exact .ok rfl
    | number _ | bool _ | series _ | boolSeries _ => exact h.fail _ _

theorem namedText (index : Nat) (what : String) :
    Agree Eq (call.namedText index what) (call'.namedText index what) := by
  apply (h.argument index).bind
  intro v w hvalue
  cases hvalue with
  | text s => exact .ok rfl
  | number _ | bool _ | series _ | boolSeries _ => exact h.fail _ _

theorem direction (index : Nat) : Agree Eq (call.direction index) (call'.direction index) := by
  apply (h.namedText index _).bind
  rintro text _ rfl
  cases Direction.ofText? text with
  | none => exact h.fail _ _
  | some direction => exact .ok rfl

theorem shownFirst : Agree (Value.Paired p) call.shownFirst call'.shownFirst := by
  apply (h.argument 0).bind
  intro v w hvalue
  rw [← hvalue.isSeries_eq, ← hvalue.type_eq]
  split
  · exact .ok hvalue
  · exact h.fail _ _

theorem plotted : Agree (Value.Paired p) call.plotted call'.plotted := by
  apply (h.argument 0).bind
  intro v w hvalue
  cases hvalue with
  | number _ | bool _ | text _ => exact h.fail _ _
  | series hs => exact .ok (.series hs)
  | boolSeries hs => exact (h.series 0).bind fun _ _ hlists => .ok (.series hlists)

theorem macd :
    Agree (fun m m' : Indicator.Macd => p.lists m.line m'.line ∧ p.lists m.signal m'.signal ∧
      p.lists m.histogram m'.histogram) call.macd call'.macd := by
  apply (h.series 0).bind
  intro s t hlists
  apply (h.period 1).bind
  rintro fast _ rfl
  apply (h.period 2).bind
  rintro slow _ rfl
  apply (h.period 3).bind
  rintro signal _ rfl
  exact .ok (p.macd fast slow signal hlists)

theorem bollinger :
    Agree (fun b b' : Indicator.Bands => p.lists b.upper b'.upper ∧ p.lists b.lower b'.lower)
      call.bollinger call'.bollinger := by
  apply (h.series 0).bind
  intro s t hlists
  apply (h.period 1).bind
  rintro period _ rfl
  apply (h.number 2).bind
  rintro mult _ rfl
  exact .ok (p.bollinger period mult hlists)

-- The three prices that many indicators read first.
theorem prices {together : α → β → Prop} {f : Series → Series → Series → Except RuntimeError α}
    {f' : Series → Series → Series → Except RuntimeError β}
    (hf : ∀ high high' low low' close close', p.lists high high' → p.lists low low' →
      p.lists close close' → Agree together (f high low close) (f' high' low' close')) :
    Agree together (do f (← call.series 0) (← call.series 1) (← call.series 2))
      (do f' (← call'.series 0) (← call'.series 1) (← call'.series 2)) := by
  apply (h.series 0).bind
  intro high high' hhigh
  apply (h.series 1).bind
  intro low low' hlow
  apply (h.series 2).bind
  intro close close' hclose
  exact hf _ _ _ _ _ _ hhigh hlow hclose

theorem stochastic :
    Agree (fun r r' : Indicator.Stochastic => p.lists r.k r'.k ∧ p.lists r.d r'.d)
      call.stochastic call'.stochastic := by
  apply h.prices
  intro high high' low low' close close' hhigh hlow hclose
  apply (h.period 3).bind
  rintro kPeriod _ rfl
  apply (h.period 4).bind
  rintro dPeriod _ rfl
  apply (h.period 5).bind
  rintro slowing _ rfl
  exact .ok (p.stochastic kPeriod dPeriod slowing hhigh hlow hclose)

-- What draws leaves a record of the title, the color and the series behind.
theorem plot : Agree (Result.Paired p) call.plot call'.plot := by
  apply h.plotted.bind
  intro v w hvalues
  apply (h.textOr 1 _).bind
  rintro title _ rfl
  apply (h.textOr 2 _).bind
  rintro color _ rfl
  apply (h.argument 0).bind
  intro first first' hfirst
  exact .ok ⟨hfirst, .some (.plot title color .line hvalues)⟩

theorem plotshape : Agree (Result.Paired p) call.plotshape call'.plotshape := by
  apply h.shownFirst.bind
  intro v w hvalue
  apply (h.textOr 1 _).bind
  rintro title _ rfl
  apply (h.textOr 2 _).bind
  rintro color _ rfl
  apply (h.condition 0).bind
  intro s t hcondition
  exact .ok ⟨hvalue, .some (.plot title color .shape (.boolSeries hcondition))⟩

theorem bgcolor : Agree (Result.Paired p) call.bgcolor call'.bgcolor := by
  apply h.shownFirst.bind
  intro v w hvalue
  apply (h.textOr 1 _).bind
  rintro color _ rfl
  apply (h.condition 0).bind
  intro s t hcondition
  exact .ok ⟨hvalue, .some (.plot "" color .background (.boolSeries hcondition))⟩

theorem strategyEntry : Agree (Result.Paired p) call.strategyEntry call'.strategyEntry := by
  apply (h.namedText 0 _).bind
  rintro id _ rfl
  apply (h.direction 1).bind
  rintro direction _ rfl
  apply (h.condition 2).bind
  intro s t hcondition
  apply (h.percentage? 3).bind
  rintro stop _ rfl
  apply (h.percentage? 4).bind
  rintro profit _ rfl
  exact .ok ⟨.boolSeries hcondition, .some (.entry id direction stop profit hcondition)⟩

theorem strategyClose : Agree (Result.Paired p) call.strategyClose call'.strategyClose := by
  apply (h.namedText 0 _).bind
  rintro id _ rfl
  apply (h.condition 1).bind
  intro s t hcondition
  exact .ok ⟨.boolSeries hcondition, .some (.close id hcondition)⟩

theorem smoothed {f : Series → Nat → Series}
    (hf : ∀ {s t : Series} (period : Nat), p.lists s t → p.lists (f s period) (f t period)) :
    Agree (Result.Paired p) (do return indicator (f (← call.series 0) (← call.period 1)))
      (do return indicator (f (← call'.series 0) (← call'.period 1))) := by
  apply (h.series 0).bind
  intro s t hlists
  apply (h.period 1).bind
  rintro period _ rfl
  exact .ok (paired_indicator (hf period hlists))

theorem apply : Agree (Result.Paired p) call.apply call'.apply := by
  unfold Call.apply
  rw [← h.function]
  cases call.function with
  | sma => exact h.smoothed p.sma
  | ema => exact h.smoothed p.ema
  | rsi => exact h.smoothed p.rsi
  | macd => exact h.macd.bind fun _ _ hm => .ok (paired_indicator hm.1)
  | macdSignal => exact h.macd.bind fun _ _ hm => .ok (paired_indicator hm.2.1)
  | macdHist => exact h.macd.bind fun _ _ hm => .ok (paired_indicator hm.2.2)
  | bbUpper => exact h.bollinger.bind fun _ _ hb => .ok (paired_indicator hb.1)
  | bbLower => exact h.bollinger.bind fun _ _ hb => .ok (paired_indicator hb.2)
  | stochK => exact h.stochastic.bind fun _ _ hr => .ok (paired_indicator hr.1)
  | stochD => exact h.stochastic.bind fun _ _ hr => .ok (paired_indicator hr.2)
  | supertrend =>
      apply h.prices
      intro high high' low low' close close' hhigh hlow hclose
      apply (h.period 3).bind
      rintro period _ rfl
      apply (h.number 4).bind
      rintro multiplier _ rfl
      exact .ok (paired_indicator (p.supertrend period multiplier hhigh hlow hclose))
  | vwap =>
      apply h.prices
      intro high high' low low' close close' hhigh hlow hclose
      apply (h.series 3).bind
      intro volume volume' hvolume
      exact .ok (paired_indicator (p.vwap hhigh hlow hclose hvolume))
  | cci =>
      apply h.prices
      intro high high' low low' close close' hhigh hlow hclose
      apply (h.period 3).bind
      rintro period _ rfl
      exact .ok (paired_indicator (p.cci period hhigh hlow hclose))
  | mfi =>
      apply h.prices
      intro high high' low low' close close' hhigh hlow hclose
      apply (h.series 3).bind
      intro volume volume' hvolume
      apply (h.period 4).bind
      rintro period _ rfl
      exact .ok (paired_indicator (p.mfi period hhigh hlow hclose hvolume))
  | obv =>
      apply (h.series 0).bind
      intro close close' hclose
      apply (h.series 1).bind
      intro volume volume' hvolume
      exact .ok (paired_indicator (p.obv hclose hvolume))
  | crossover | crossunder =>
      apply (h.series 0).bind
      intro a a' ha
      apply (h.series 1).bind
      intro b b' hb
      exact .ok ⟨.boolSeries (p.crossing _ ha hb), .none⟩
  | plot => exact h.plot
  | plotshape => exact h.plotshape
  | bgcolor => exact h.bgcolor
  | strategyEntry => exact h.strategyEntry
  | strategyClose => exact h.strategyClose

end Paired

-- A call by name goes the same way with paired arguments.
theorem agree_perform (func : String) {values values' : List Value} {k k' : Nat}
    (hvalues : List.Forall₂ (Value.Paired p) values values') (hk : p.counts k k') :
    Agree (Result.Paired p) (perform func values k) (perform func values' k') := by
  unfold perform
  cases Builtin.lookup? func with
  | none => exact .error _
  | some function =>
      have hcall : Paired p ⟨function, values, k⟩ ⟨function, values', k'⟩ := ⟨rfl, hvalues, hk⟩
      simp only [hvalues.length_eq]
      split
      · exact hcall.apply
      · exact hcall.fail _ _

end Call

end CandleScript
