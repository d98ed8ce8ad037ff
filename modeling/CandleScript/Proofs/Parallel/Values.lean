import CandleScript.Proofs.Parallel.Pairing
import CandleScript.Run.Operation

namespace CandleScript

variable {ε α β α' β' : Type}

-- Both fail alike, or both succeed with results that go together.
inductive Agree (together : α → α' → Prop) : Except ε α → Except ε α' → Prop where
  | error (e : ε) : Agree together (.error e) (.error e)
  | ok {x : α} {x' : α'} (h : together x x') : Agree together (.ok x) (.ok x')

theorem Agree.bind {together : α → α' → Prop} {next : β → β' → Prop} {x : Except ε α}
    {x' : Except ε α'} {f : α → Except ε β} {f' : α' → Except ε β'} (hx : Agree together x x')
    (hf : ∀ a a', together a a' → Agree next (f a) (f' a')) :
    Agree next (x >>= f) (x' >>= f') := by
  cases hx with
  | error e => exact .error e
  | ok h => exact hf _ _ h

-- Related options are absent together or present together.
theorem absent_or_present {together : α → α' → Prop} {o : Option α} {o' : Option α'}
    (h : Option.Rel together o o') :
    (o = none ∧ o' = none) ∨ ∃ x x', o = some x ∧ o' = some x' ∧ together x x' := by
  cases h with
  | none => exact .inl ⟨rfl, rfl⟩
  | some h => exact .inr ⟨_, _, rfl, rfl, h⟩

-- Values of one shape: equal where they are no series, and paired where they
-- are.
inductive Value.Paired (p : Pairing) : Value → Value → Prop where
  | number (x : Float) : Paired p (.number x) (.number x)
  | bool (b : Bool) : Paired p (.bool b) (.bool b)
  | text (s : String) : Paired p (.text s) (.text s)
  | series {s t : Series} (h : p.lists s t) : Paired p (.series s) (.series t)
  | boolSeries {s t : List Bool} (h : p.lists s t) : Paired p (.boolSeries s) (.boolSeries t)

namespace Value

variable {p : Pairing} {v w v' w' : Value} {k k' : Nat}

theorem paired_ofConstant (p : Pairing) (c : Ir.Constant) :
    Paired p (ofConstant c) (ofConstant c) := by
  cases c with
  | number x => exact .number x
  | bool b => exact .bool b
  | text s => exact .text s

namespace Paired

theorem type_eq (h : Paired p v w) : v.type = w.type := by cases h <;> rfl

theorem isSeries_eq (h : Paired p v w) : v.isSeries = w.isSeries := by cases h <;> rfl

theorem number?_eq (h : Paired p v w) : v.number? = w.number? := by cases h <;> rfl

theorem toSeries? (h : Paired p v w) (hk : p.counts k k') :
    Option.Rel p.lists (v.toSeries? k) (w.toSeries? k') := by
  cases h with
  | number x => exact .some (p.replicate _ hk)
  | bool b => exact .some (p.replicate _ hk)
  | text s => exact .none
  | series h => exact .some h
  | boolSeries h => exact .some (p.map _ h)

theorem toBools? (h : Paired p v w) (hk : p.counts k k') :
    Option.Rel p.lists (v.toBools? k) (w.toBools? k') := by
  cases h with
  | number x => exact .some (p.replicate _ hk)
  | bool b => exact .some (p.replicate _ hk)
  | text s => exact .none
  | series h => exact .some (p.map _ h)
  | boolSeries h => exact .some h

end Paired

end Value

namespace Operator

open Value (Paired)

variable {p : Pairing} {left left' right right' : Value} {k k' : Nat}

theorem agree_onNumbers (p : Pairing) (op : Operator) (a b : Float) :
    Agree (Paired p) (op.onNumbers a b) (op.onNumbers a b) := by
  cases op with
  | add | sub | mul => exact .ok (.number _)
  | div =>
      simp only [onNumbers]
      split
      · exact .error _
      · exact .ok (.number _)
  | eq | ne | gt | lt | ge | le | both | either => exact .ok (.bool _)

theorem agree_onTexts (p : Pairing) (op : Operator) (a b : String) :
    Agree (Paired p) (op.onTexts a b) (op.onTexts a b) := by
  cases op with
  | eq | ne => exact .ok (.bool _)
  | add | sub | mul | div | gt | lt | ge | le | both | either => exact .error _

theorem paired_onSeries (op : Operator) {a a' b b' : Series} (ha : p.lists a a')
    (hb : p.lists b b') (hk : p.counts k k') :
    Paired p (op.onSeries a b k) (op.onSeries a' b' k') := by
  have hleft := p.fit hk ha
  have hright := p.fit hk hb
  unfold onSeries
  split
  · exact .boolSeries (p.zipWith _ hleft hright)
  · exact .series (p.zipWith _ hleft hright)

theorem paired_spread (op : Operator) (hl : Paired p left left') (hr : Paired p right right')
    (hk : p.counts k k') : Paired p (op.spread left right k) (op.spread left' right' k') := by
  unfold spread
  rcases absent_or_present (hl.toSeries? hk) with ⟨ha, ha'⟩ | ⟨a, a', ha, ha', hleft⟩
  · simp only [ha, ha']
    exact .series (p.replicate _ hk)
  rcases absent_or_present (hr.toSeries? hk) with ⟨hb, hb'⟩ | ⟨b, b', hb, hb', hright⟩
  · simp only [ha, ha', hb, hb']
    exact .series (p.replicate _ hk)
  simp only [ha, ha', hb, hb']
  exact op.paired_onSeries hleft hright hk

-- An operator tells values apart by their shapes only, and by their numbers
-- and texts.
theorem agree_apply (op : Operator) (hl : Paired p left left') (hr : Paired p right right') :
    Agree (Paired p) (op.apply left right) (op.apply left' right') := by
  have hspread {k k' : Nat} (hk : p.counts k k') :
      Agree (ε := RuntimeError) (Paired p) (.ok (op.spread left right k))
        (.ok (op.spread left' right' k')) :=
    .ok (op.paired_spread hl hr hk)
  cases hl with
  | number _ | bool _ =>
      cases hr with
      | number _ | bool _ => exact op.agree_onNumbers p _ _
      | text _ => exact .error _
      | series hb | boolSeries hb => exact hspread (p.length hb)
  | text _ =>
      cases hr with
      | number _ | bool _ => exact .error _
      | text _ => exact op.agree_onTexts p _ _
      | series hb | boolSeries hb => exact hspread (p.length hb)
  | series ha | boolSeries ha =>
      cases hr with
      | number _ | bool _ | text _ => exact hspread (p.length ha)
      | series hb | boolSeries hb => exact hspread (p.max (p.length ha) (p.length hb))

end Operator

end CandleScript
