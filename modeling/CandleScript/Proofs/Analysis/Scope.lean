import CandleScript.Proofs.Optimise.Fold
import CandleScript.Script.Analysis

namespace CandleScript

namespace Diagnostics

-- The first finding that a name is not defined.
def undefined? (found : Diagnostics) : Option Diagnostic :=
  found.find? fun d => d.code = .undefinedVariable

theorem undefined?_append (a b : Diagnostics) :
    (a ++ b).undefined? = a.undefined?.or b.undefined? :=
  List.find?_append

-- What the findings have to say of an error: if a name is missing, then the
-- first finding of that kind is about this name.
def Foretell (found : Diagnostics) (e : RuntimeError) : Prop :=
  ∀ name, e = .undefinedVariable name →
    ∃ d, found.undefined? = some d ∧ d.message = s!"'{name}' is not defined before this point"

theorem Foretell.append_left {a : Diagnostics} {e : RuntimeError} (h : a.Foretell e)
    (b : Diagnostics) : (a ++ b).Foretell e := by
  intro name hname
  obtain ⟨d, hd, hmessage⟩ := h name hname
  exact ⟨d, by rw [undefined?_append, hd, Option.some_or], hmessage⟩

theorem Foretell.append_right {a b : Diagnostics} {e : RuntimeError} (h : b.Foretell e)
    (ha : a.undefined? = none) : (a ++ b).Foretell e := by
  intro name hname
  rw [undefined?_append, ha, Option.none_or]
  exact h name hname

end Diagnostics

namespace Analysis

-- What is known at a place of the script describes the context there: the bound
-- names are the reserved ones and those in scope, and a constant is only known
-- of a bound name.
structure Describes (scope : Scope) (known : Ir.Constants) (context : Context) : Prop where
  bound : ∀ name, (context.get? name).isSome = (isReserved name || (scope.get? name).isSome)
  known : ∀ name, (known.get? name).isSome = true → (context.get? name).isSome = true

theorem describes_empty {context : Context}
    (h : ∀ name, (context.get? name).isSome = isReserved name) :
    Describes .empty .empty context := by
  constructor
  · intro name
    rw [h name]
    exact (Bool.or_false _).symm
  · rintro name ⟨⟩

theorem Describes.assign {scope : Scope} {known : Ir.Constants} {context : Context}
    (h : Describes scope known context) (optimize : Bool) (name : String) (place : Span)
    (node : Ir.Node) (value : Value) :
    Describes (scope.setIfNew name place) (known.assign optimize name node)
      (context.set name value) := by
  constructor
  · intro other
    rw [Bindings.isSome_get?_set, Bindings.isSome_get?_setIfNew, h.bound, Bool.or_left_comm]
  · intro other hother
    rw [Bindings.isSome_get?_set, Bool.or_eq_true]
    by_cases hname : name = other
    · exact .inl (decide_eq_true hname)
    · rw [known.get?_assign_of_ne optimize hname] at hother
      exact .inr (h.known other hother)

theorem undefined?_checkCallee (callee : String) (count : Nat) (span : Span) :
    (checkCallee callee count span).undefined? = none := by
  unfold checkCallee
  simp only
  split
  · rfl
  · split
    · rfl
    · split <;> rfl

-- A target that nothing is wrong with is bound.
theorem checkTarget_of_valid {scope : Scope} {name : String} {span : Span}
    (h : (checkTarget scope name span).1.hasErrors = false) :
    checkTarget scope name span = ([], scope.setIfNew name (nameSpan span name)) := by
  unfold checkTarget at h ⊢
  simp only at h ⊢
  split
  · rename_i hforbidden
    rw [hforbidden] at h
    cases h
  · rename_i hallowed
    rw [hallowed] at h
    split
    · rename_i hreserved
      rw [if_pos hreserved] at h
      cases h
    · rfl

theorem undefined?_checkName_of_bound {scope : Scope} {known : Ir.Constants} {context : Context}
    (hd : Describes scope known context) {name : String} (h : (context.get? name).isSome = true)
    (span : Span) : (checkName scope name span).undefined? = none := by
  rw [hd.bound] at h
  unfold checkName
  split
  · rfl
  · rw [if_pos h]
    rfl

theorem undefined?_checkName_of_unbound {scope : Scope} {known : Ir.Constants} {context : Context}
    (hd : Describes scope known context) {name : String} (h : context.get? name = none)
    {span : Span} (hvalid : (checkName scope name span).hasErrors = false) :
    (checkName scope name span).undefined? = some (undefined scope name span) := by
  have hunbound := hd.bound name
  rw [h] at hunbound
  unfold checkName at hvalid ⊢
  split
  · rename_i hforbidden
    rw [hforbidden] at hvalid
    cases hvalid
  · rw [← hunbound]
    rfl

end Analysis

-- Runs on candles start with nothing but candle data.
theorem Context.isSome_get?_ofBars (bars : List Bar) (name : String) :
    ((ofBars bars).get? name).isSome = isReserved name := by
  have hempty : ((Bindings.empty : Context).get? name).isSome = false := rfl
  simp only [ofBars, Bindings.isSome_get?_set, hempty, isReserved, reservedSeries]
  grind

end CandleScript
