import Mathlib.Data.List.Lex
import CandleScript.Bindings

namespace CandleScript

namespace Text

-- Names are compared by their code points, one after the other.
def codePoints (name : String) : List ℕ := name.toList.map Char.toNat

theorem codePoints_injective : Function.Injective codePoints := by
  intro a b h
  have hchars : Function.Injective Char.toNat := fun _ _ => Char.toNat_inj.mp
  exact String.toList_inj.mp (List.map_injective_iff.mpr hchars h)

theorem precedesChars_iff (cs ds : List Char) :
    precedesChars cs ds = true ↔ cs.map Char.toNat < ds.map Char.toNat := by
  induction cs generalizing ds with
  | nil => cases ds <;> simp [precedesChars]
  | cons c cs ih => cases ds <;> simp [precedesChars, ih, List.cons_lt_cons_iff]

theorem precedes_iff {a b : String} : precedes a b = true ↔ codePoints a < codePoints b :=
  precedesChars_iff a.toList b.toList

theorem precedes_trans {a b c : String} (hab : precedes a b = true) (hbc : precedes b c = true) :
    precedes a c = true :=
  precedes_iff.mpr (lt_trans (precedes_iff.mp hab) (precedes_iff.mp hbc))

theorem precedes_asymm {a b : String} (h : precedes a b = true) : precedes b a = false :=
  Bool.eq_false_iff.mpr fun h' => lt_asymm (precedes_iff.mp h) (precedes_iff.mp h')

theorem ne_of_precedes {a b : String} (h : precedes a b = true) : a ≠ b := by
  rintro rfl
  exact lt_irrefl _ (precedes_iff.mp h)

theorem precedes_or_precedes {a b : String} (h : a ≠ b) :
    precedes a b = true ∨ precedes b a = true := by
  rw [precedes_iff, precedes_iff]
  exact lt_or_gt_of_ne (codePoints_injective.ne h)

end Text

namespace Bindings

open Text

variable {α : Type} {a b : String}

-- The earlier of two names finds its place in front of the later one, whether
-- that is there yet or not.
theorem put_put (h : precedes a b = true) (x y : α) (entries : List (String × α)) :
    put a x (put b y entries) = put b y (put a x entries) := by
  have hne := ne_of_precedes h
  have hlate := precedes_asymm h
  induction entries with
  | nil => simp [put, h, hne, hne.symm, hlate]
  | cons entry rest ih =>
      obtain ⟨key, old⟩ := entry
      by_cases ha : key = a
      · subst ha
        simp [put, hne, hlate]
      · rcases precedes_or_precedes ha with hbefore | hafter
        · have hkey := precedes_trans hbefore h
          simp [put, ha, ne_of_precedes hkey, precedes_asymm hbefore, precedes_asymm hkey, ih]
        · by_cases hb : key = b
          · subst hb
            simp [put, h, hne, hne.symm, hlate]
          · by_cases hkey : precedes b key = true <;>
              simp [put, ha, hb, h, hne, hne.symm, hlate, hafter, hkey]

theorem set_set (h : a ≠ b) (x y : α) (bindings : Bindings α) :
    (bindings.set a x).set b y = (bindings.set b y).set a x := by
  rcases precedes_or_precedes h with hab | hba
  · exact congrArg mk (put_put hab x y bindings.entries).symm
  · exact congrArg mk (put_put hba y x bindings.entries)

end Bindings

end CandleScript
