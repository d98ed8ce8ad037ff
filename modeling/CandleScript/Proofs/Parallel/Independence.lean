import CandleScript.Proofs.Parallel.Lookahead

namespace CandleScript

-- Lists of two runs that need not have anything in common.
def Pairing.any : Pairing where
  lists _ _ := True
  counts _ _ := True
  length _ := trivial
  max _ _ := trivial
  replicate _ _ _ _ := trivial
  scan _ _ _ _ _ := trivial
  zip _ _ := trivial
  fit _ _ := trivial

-- Cut to no candles at all, values are equal exactly if they differ in the
-- contents of series only.
theorem Value.paired_any_iff (v w : Value) : Paired .any v w ↔ v.cut 0 = w.cut 0 := by
  constructor
  · intro h
    cases h <;> rfl
  · intro h
    cases v <;> cases w <;> cases h
    · exact .number _
    · exact .bool _
    · exact .series trivial
    · exact .boolSeries trivial
    · exact .text _

theorem Record.Paired.cut_zero_eq {r r' : Record} (h : Record.Paired .any r r') :
    r.cut 0 = r'.cut 0 := by
  cases h with
  | plot title color style h =>
      simp only [Record.cut, (Value.paired_any_iff _ _).mp h]
  | entry _ _ _ _ _ | close _ _ => rfl

theorem Context.paired_any_iff (context context' : Context) :
    context.Paired .any context' ↔
      ∀ name, (context.get? name).map (Value.cut 0) = (context'.get? name).map (Value.cut 0) := by
  constructor
  · intro h name
    rcases absent_or_present (h name) with ⟨hv, hw⟩ | ⟨v, w, hv, hw, hvalue⟩
    · rw [hv, hw]
    · rw [hv, hw, Option.map_some, (Value.paired_any_iff v w).mp hvalue, Option.map_some]
  · intro h name
    have hname := h name
    cases hv : context.get? name with
    | none =>
        rw [hv, Option.map_none, eq_comm, Option.map_eq_none_iff] at hname
        rw [hname]
        exact .none
    | some v =>
        rw [hv, Option.map_some, eq_comm, Option.map_eq_some_iff] at hname
        obtain ⟨w, hw, hcut⟩ := hname
        rw [hw]
        exact .some ((Value.paired_any_iff v w).mpr hcut.symm)

-- Any two histories of candles lead to contexts that differ in no other way.
theorem Context.cut_zero_ofBars (bars bars' : List Bar) :
    (ofBars bars).cut 0 = (ofBars bars').cut 0 := rfl

-- Outcomes do not depend on candle data. Two contexts that differ in the
-- contents and lengths of their series only lead to the same result, to
-- contexts that again differ in no other way, and to records that do so.
theorem execute_independent (limits : Limits) (program : Ir.Program) (context context' : Context)
    (hcontext : ∀ name,
      (context.get? name).map (Value.cut 0) = (context'.get? name).map (Value.cut 0))
    (hcount : context.candleCount ≤ limits.maxSeriesLength)
    (hcount' : context'.candleCount ≤ limits.maxSeriesLength) (clock clock' : Nat → Nat)
    (htime : ((execute .records limits program context []).result clock).endsOn .executionTime =
      false)
    (htime' : ((execute .records limits program context' []).result clock').endsOn
      .executionTime = false) :
    let one := (execute .records limits program context []).result clock
    let other := (execute .records limits program context' []).result clock'
    one.result = other.result ∧
      (∀ name, (one.context.get? name).map (Value.cut 0) =
        (other.context.get? name).map (Value.cut 0)) ∧
      one.kept.map (Record.cut 0) = other.kept.map (Record.cut 0) := by
  have hpaired := execute_paired (Channel.paired_records .any) limits program
    ((Context.paired_any_iff _ _).mpr hcontext) trivial .nil hcount hcount' clock clock' htime
    htime'
  refine ⟨hpaired.result, (Context.paired_any_iff _ _).mp hpaired.context, ?_⟩
  have hkept := hpaired.kept.imp fun r r' h => Record.Paired.cut_zero_eq h
  have hmaps := List.forall₂_map_left_iff.mpr (List.forall₂_map_right_iff.mpr hkept)
  rw [List.forall₂_eq_eq_eq] at hmaps
  exact hmaps

-- The average of two candles is drawn as often over one candle as over four.
theorem execute_independent_rising :
    let run prices := (execute .records .standard risingProgram (.ofBars (flatBars prices))
      []).result fun _ => 0
    (run [5.0]).result = (run [2.0, 1.0, 3.0, 2.0]).result ∧
      (run [5.0]).kept.map (Record.cut 0) = (run [2.0, 1.0, 3.0, 2.0]).kept.map (Record.cut 0) := by
  obtain ⟨hresult, -, hkept⟩ := execute_independent .standard risingProgram
    (.ofBars (flatBars [5.0])) (.ofBars (flatBars [2.0, 1.0, 3.0, 2.0]))
    (fun name => by rw [← Context.get?_cut, ← Context.get?_cut, Context.cut_zero_ofBars])
    (by decide) (by decide) (fun _ => 0) (fun _ => 0) rfl rfl
  exact ⟨hresult, hkept⟩

end CandleScript
