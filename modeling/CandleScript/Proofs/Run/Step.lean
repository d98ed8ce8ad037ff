import CandleScript.Run.Execute

namespace CandleScript

variable {σ α β : Type}

theorem bind_of_ok {x : Step σ α} {f : α → Step σ β} {machine next : Machine σ} {value : α}
    (hx : x machine = .ok value next) : (x >>= f) machine = f value next := by
  change EStateM.bind x f machine = f value next
  simp only [EStateM.bind, hx]

theorem bind_of_error {x : Step σ α} {f : α → Step σ β} {machine next : Machine σ}
    {e : RuntimeError} (hx : x machine = .error e next) : (x >>= f) machine = .error e next := by
  change EStateM.bind x f machine = .error e next
  simp only [EStateM.bind, hx]

theorem exists_of_bind_eq_ok {x : Step σ α} {f : α → Step σ β} {machine next : Machine σ}
    {result : β} (h : (x >>= f) machine = .ok result next) :
    ∃ value between, x machine = .ok value between ∧ f value between = .ok result next := by
  cases hx : x machine with
  | ok value between =>
      rw [bind_of_ok hx] at h
      exact ⟨value, between, rfl, h⟩
  | error e between =>
      rw [bind_of_error hx] at h
      cases h

theorem exists_of_bind_eq_error {x : Step σ α} {f : α → Step σ β} {machine next : Machine σ}
    {e : RuntimeError} (h : (x >>= f) machine = .error e next) :
    x machine = .error e next ∨
      ∃ value between, x machine = .ok value between ∧ f value between = .error e next := by
  cases hx : x machine with
  | ok value between =>
      rw [bind_of_ok hx] at h
      exact .inr ⟨value, between, rfl, h⟩
  | error e' between =>
      rw [bind_of_error hx] at h
      cases h
      exact .inl rfl

namespace Setting

-- Nothing but the count changes while operations are left.
theorem tick_of_le (setting : Setting σ) {machine : Machine σ}
    (hfew : machine.operations + 1 ≤ setting.limits.maxOperations) :
    setting.tick machine = .ok () { machine with operations := machine.operations + 1 } := by
  simp only [tick, Limits.checkOperations, Nat.not_lt.mpr hfew, if_false]

theorem tick_of_lt (setting : Setting σ) {machine : Machine σ}
    (hmany : setting.limits.maxOperations < machine.operations + 1) :
    setting.tick machine =
      .error (.limitExceeded ⟨.operations, setting.limits.maxOperations, machine.operations + 1⟩)
        { machine with operations := machine.operations + 1 } := by
  simp only [tick, Limits.checkOperations, hmany, if_true]

theorem eq_of_tick_eq_ok {setting : Setting σ} {machine next : Machine σ}
    (h : setting.tick machine = .ok () next) :
    next = { machine with operations := machine.operations + 1 } ∧
      machine.operations + 1 ≤ setting.limits.maxOperations := by
  by_cases hmany : setting.limits.maxOperations < machine.operations + 1
  · rw [setting.tick_of_lt hmany] at h
    cases h
  · have hfew := Nat.not_lt.mp hmany
    rw [setting.tick_of_le hfew] at h
    cases h
    exact ⟨rfl, hfew⟩

theorem eval_const_of_le (setting : Setting σ) (c : Ir.Constant) {machine : Machine σ}
    (hfew : machine.operations + 1 ≤ setting.limits.maxOperations) :
    setting.eval (.const c) machine =
      .ok (.ofConstant c) { machine with operations := machine.operations + 1 } := by
  rw [eval, bind_of_ok (setting.tick_of_le hfew)]
  rfl

end Setting

end CandleScript
