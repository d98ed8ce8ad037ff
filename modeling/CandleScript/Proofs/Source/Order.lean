import Mathlib.Data.Prod.Lex
import CandleScript.Source.Span

namespace CandleScript

namespace Position

-- Source order compares lines first, then columns.
def key (p : Position) : ℕ ×ₗ ℕ := toLex (p.line, p.column)

theorem key_injective : Function.Injective key := by
  rintro ⟨line, column⟩ ⟨line', column'⟩ h
  cases h
  rfl

instance : LinearOrder Position := .lift' key key_injective

variable {p q : Position}

theorem lt_iff : p < q ↔ p.line < q.line ∨ p.line = q.line ∧ p.column < q.column :=
  Prod.Lex.toLex_lt_toLex

theorem le_iff : p ≤ q ↔ p.line < q.line ∨ p.line = q.line ∧ p.column ≤ q.column :=
  Prod.Lex.toLex_le_toLex

theorem isBefore_iff : p.isBefore q = true ↔ p < q := by
  simp [isBefore, lt_iff]

theorem isBefore_eq_false_iff : p.isBefore q = false ↔ q ≤ p := by
  rw [← Bool.not_eq_true, isBefore_iff, not_lt]

theorem earlier_eq (h : p ≤ q) : p.earlier q = p := by
  rw [earlier, isBefore_eq_false_iff.mpr h, if_neg Bool.false_ne_true]

theorem later_eq (h : p ≤ q) : p.later q = q := by
  unfold later
  split
  · rfl
  · rename_i hbefore
    rw [isBefore_iff, not_lt] at hbefore
    exact le_antisymm h hbefore

theorem lt_advance (p : Position) (c : Char) : p < p.advance c := by
  rw [lt_iff, advance]
  split
  · exact .inl (Nat.lt_succ_self _)
  · exact .inr ⟨rfl, Nat.lt_succ_self _⟩

-- Every character leads further on.
theorem le_after (p : Position) (cs : List Char) : p ≤ p.after cs := by
  induction cs generalizing p with
  | nil => exact le_refl p
  | cons c cs ih => exact le_trans (lt_advance p c).le (ih _)

-- On one line a text is as wide as it is long.
theorem after_of_notMem {cs : List Char} (h : '\n' ∉ cs) (p : Position) :
    p.after cs = ⟨p.line, p.column + cs.length⟩ := by
  induction cs generalizing p with
  | nil => rfl
  | cons c cs ih =>
      simp only [List.mem_cons, not_or] at h
      have hadvance : p.advance c = ⟨p.line, p.column + 1⟩ := if_neg (Ne.symm h.1)
      change (p.advance c).after cs = _
      rw [hadvance, ih h.2, List.length_cons, Nat.add_assoc, Nat.add_comm 1]

theorem line_le_after (p : Position) (cs : List Char) : p.line ≤ (p.after cs).line := by
  rcases le_iff.mp (le_after p cs) with h | ⟨h, -⟩
  · exact Nat.le_of_lt h
  · exact Nat.le_of_eq h

theorem line_lt_after {cs : List Char} (h : '\n' ∈ cs) (p : Position) :
    p.line < (p.after cs).line := by
  induction cs generalizing p with
  | nil => cases h
  | cons c cs ih =>
      change p.line < ((p.advance c).after cs).line
      by_cases hc : c = '\n'
      · subst hc
        exact line_le_after (p.advance '\n') cs
      · have hadvance : p.advance c = ⟨p.line, p.column + 1⟩ := if_neg hc
        rw [hadvance]
        exact ih (List.mem_of_ne_of_mem (Ne.symm hc) h) ⟨p.line, p.column + 1⟩

end Position

namespace Span

theorem start_lt_stop_spanning (p : Position) (length : Nat) :
    (spanning p length).start < (spanning p length).stop :=
  Position.lt_iff.mpr (.inr ⟨rfl, Nat.lt_add_of_pos_right (Nat.lt_of_lt_of_le Nat.one_pos
    (Nat.le_max_right length 1))⟩)

-- What covers two spans in their order reaches from the first to the second.
theorem cover_eq {a b : Span} (hstart : a.start ≤ b.start) (hstop : a.stop ≤ b.stop) :
    a.cover b = ⟨a.start, b.stop⟩ := by
  rw [cover, Position.earlier_eq hstart, Position.later_eq hstop]

-- One stretch of a text inside another.
def Within (a b : Span) : Prop := b.start ≤ a.start ∧ a.stop ≤ b.stop

-- One stretch of a text in front of another, up to touching it.
def Ahead (a b : Span) : Prop := a.stop ≤ b.start

def holds (span : Span) (p : Position) : Bool := !p.isBefore span.start && p.isBefore span.stop

-- The characters of a text from a place on whose places lie in a span.
def charsFrom (span : Span) : Position → List Char → List Char
  | _, [] => []
  | p, c :: cs =>
    let rest := span.charsFrom (p.advance c) cs
    if span.holds p then c :: rest else rest

-- What stands at a span of a source.
def chars (span : Span) (source : String) : String :=
  .ofList (span.charsFrom .start source.toList)

variable {span : Span} {p : Position} {cs : List Char}

theorem holds_iff : span.holds p = true ↔ span.start ≤ p ∧ p < span.stop := by
  rw [holds, Bool.and_eq_true, Bool.not_eq_true', Position.isBefore_eq_false_iff,
    Position.isBefore_iff]

theorem charsFrom_append (span : Span) (p : Position) (cs ds : List Char) :
    span.charsFrom p (cs ++ ds) = span.charsFrom p cs ++ span.charsFrom (p.after cs) ds := by
  induction cs generalizing p with
  | nil => rfl
  | cons c cs ih =>
      rw [List.cons_append, charsFrom, charsFrom, ih]
      split <;> rfl

theorem charsFrom_of_le_start (h : p.after cs ≤ span.start) : span.charsFrom p cs = [] := by
  induction cs generalizing p with
  | nil => rfl
  | cons c cs ih =>
      have hbefore : p < span.start :=
        lt_of_lt_of_le (Position.lt_advance p c) (le_trans (Position.le_after _ cs) h)
      have hout : ¬span.holds p = true := fun hin => not_le_of_gt hbefore (holds_iff.mp hin).1
      rw [charsFrom, if_neg hout]
      exact ih h

theorem charsFrom_of_stop_le (h : span.stop ≤ p) : span.charsFrom p cs = [] := by
  induction cs generalizing p with
  | nil => rfl
  | cons c cs ih =>
      have hout : ¬span.holds p = true := fun hin => not_le_of_gt (holds_iff.mp hin).2 h
      rw [charsFrom, if_neg hout]
      exact ih (le_trans h (Position.lt_advance p c).le)

theorem charsFrom_of_within (hstart : span.start ≤ p) (hstop : p.after cs ≤ span.stop) :
    span.charsFrom p cs = cs := by
  induction cs generalizing p with
  | nil => rfl
  | cons c cs ih =>
      have hnext := Position.lt_advance p c
      have hbefore : p < span.stop :=
        lt_of_lt_of_le hnext (le_trans (Position.le_after _ cs) hstop)
      rw [charsFrom, if_pos (holds_iff.mpr ⟨hstart, hbefore⟩), ih (le_trans hstart hnext.le) hstop]

end Span

end CandleScript
