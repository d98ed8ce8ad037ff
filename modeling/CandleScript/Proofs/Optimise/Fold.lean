import CandleScript.Ir.Lower
import CandleScript.Run.Context
import CandleScript.Run.Operation

namespace CandleScript.Ir

-- What is carried out ahead of a run is what the run would have computed.
theorem onNumbers_of_foldNumbers {op : Operator} {a b : Float} {c : Constant}
    (hfold : foldNumbers op a b = some c) : op.onNumbers a b = .ok (.ofConstant c) := by
  have hfinite : ∀ x : Float, (if x.isFinite then some (Constant.number x) else none) = some c →
      Value.number x = .ofConstant c := by
    intro x hx
    split at hx
    · cases hx
      rfl
    · cases hx
  cases op with
  | add => exact congrArg Except.ok (hfinite _ hfold)
  | sub => exact congrArg Except.ok (hfinite _ hfold)
  | mul => exact congrArg Except.ok (hfinite _ hfold)
  | div =>
      by_cases hzero : b == 0.0
      · simp [foldNumbers, hzero] at hfold
      · simp only [foldNumbers, hzero, Bool.false_eq_true, if_false] at hfold
        simp only [Operator.onNumbers, hzero, Bool.false_eq_true, if_false]
        exact congrArg Except.ok (hfinite _ hfold)
  | both => cases hfold
  | either => cases hfold
  | _ =>
      cases hfold
      rfl

-- Only operations on two known numbers are carried out ahead.
theorem numbers_of_foldNodes {op : Operator} {left right : Node} {c : Constant}
    (hfold : foldNodes op left right = some c) :
    ∃ a b, left = .const (.number a) ∧ right = .const (.number b) ∧
      foldNumbers op a b = some c := by
  have hnumber : ∀ {node : Node} {x : Float},
      node.constant?.bind Constant.number? = some x → node = .const (.number x) := by
    intro node x hx
    cases node with
    | const value =>
        cases value with
        | number y =>
            cases hx
            rfl
        | bool _ => cases hx
        | text _ => cases hx
    | _ => cases hx
  unfold foldNodes at hfold
  split at hfold
  · rename_i a b ha hb
    exact ⟨a, b, hnumber ha, hnumber hb, hfold⟩
  · cases hfold

-- An assignment touches no other name.
theorem Constants.get?_assign_of_ne (known : Constants) (optimize : Bool) {name other : String}
    (h : name ≠ other) (node : Node) :
    (known.assign optimize name node).get? other = known.get? other := by
  unfold assign
  split
  · split
    · rw [Bindings.get?_set, if_neg h]
    · rw [Bindings.get?_erase, if_neg h]
  · rw [Bindings.get?_erase, if_neg h]

-- The known constants are what the names are bound to at this point of a run.
def Constants.Hold (known : Constants) (context : Context) : Prop :=
  ∀ name c, known.get? name = some c → context.get? name = some (.ofConstant c)

theorem Constants.hold_empty (context : Context) : Constants.Hold .empty context := by
  intro name c hc
  cases hc

-- An assignment replaces or removes exactly the entry of its name, so nothing
-- known is outdated after it.
theorem Constants.Hold.assign {known : Constants} {context : Context} (hknown : known.Hold context)
    (name : String) {node : Node} {value : Value}
    (hvalue : ∀ c, node.constant? = some c → value = .ofConstant c) :
    (known.assign true name node).Hold (context.set name value) := by
  intro other c hc
  rw [Bindings.get?_set]
  cases hnode : node.constant? with
  | none =>
      simp only [Constants.assign, hnode, Bindings.get?_erase] at hc
      by_cases hname : name = other
      · simp [hname] at hc
      · rw [if_neg hname] at hc ⊢
        exact hknown other c hc
  | some d =>
      simp only [Constants.assign, hnode, if_true, Bindings.get?_set] at hc
      by_cases hname : name = other
      · simp only [hname, if_true, Option.some.injEq] at hc ⊢
        rw [hvalue d hnode, hc]
      · rw [if_neg hname] at hc ⊢
        exact hknown other c hc

theorem length_lowerAll (optimize : Bool) (known : Constants) (nodes : List CandleScript.Node) :
    (lowerAll optimize known nodes).1.length = nodes.length := by
  induction nodes generalizing known with
  | nil => rfl
  | cons node rest ih => exact congrArg Nat.succ (ih _)

-- Without optimisation names and operations stay as they are.
theorem lowerName_false (known : Constants) (name : String) :
    lowerName known false name = .var name := by
  unfold lowerName
  cases known.get? name <;> rfl

theorem lowerBinary_false (op : Operator) (left right : Node) :
    lowerBinary false op left right = .binary op left right := by
  unfold lowerBinary
  cases foldNodes op left right <;> rfl

end CandleScript.Ir
