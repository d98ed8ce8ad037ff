import CandleScript.Text.Order

namespace CandleScript

-- Values bound to names, each name at most once, in the order of the names'
-- code points.
structure Bindings (α : Type) where
  entries : List (String × α)
  deriving Repr

namespace Bindings

variable {α : Type}

def empty : Bindings α := ⟨[]⟩

def find (name : String) : List (String × α) → Option α
  | [] => none
  | (key, value) :: rest => if key = name then some value else find name rest

def put (name : String) (value : α) : List (String × α) → List (String × α)
  | [] => [(name, value)]
  | (key, old) :: rest =>
    if key = name then (name, value) :: rest
    else if Text.precedes name key then (name, value) :: (key, old) :: rest
    else (key, old) :: put name value rest

def get? (bindings : Bindings α) (name : String) : Option α := find name bindings.entries

-- Binds a name, in place of any earlier value.
def set (bindings : Bindings α) (name : String) (value : α) : Bindings α :=
  ⟨put name value bindings.entries⟩

def erase (bindings : Bindings α) (name : String) : Bindings α :=
  ⟨bindings.entries.filter fun entry => entry.1 ≠ name⟩

-- Binds a name only if it has no value yet.
def setIfNew (bindings : Bindings α) (name : String) (value : α) : Bindings α :=
  match bindings.get? name with
  | some _ => bindings
  | none => bindings.set name value

def names (bindings : Bindings α) : List String := bindings.entries.map Prod.fst

theorem find_put (name other : String) (value : α) (entries : List (String × α)) :
    find other (put name value entries) = if name = other then some value else find other entries := by
  induction entries with
  | nil => simp [put, find]
  | cons entry rest ih =>
      obtain ⟨key, old⟩ := entry
      by_cases hk : key = name
      · subst hk
        by_cases ho : key = other <;> simp [put, find, ho]
      · by_cases hlt : Text.precedes name key
        · simp [put, find, if_neg hk, if_pos hlt]
        · rw [put, if_neg hk, if_neg hlt, find, ih, find]
          by_cases ho : key = other
          · rw [if_pos ho, if_neg fun h => hk (ho.trans h.symm), if_pos ho]
          · rw [if_neg ho, if_neg ho]

theorem get?_set (bindings : Bindings α) (name other : String) (value : α) :
    (bindings.set name value).get? other = if name = other then some value else bindings.get? other :=
  find_put name other value bindings.entries

theorem isSome_get?_set (bindings : Bindings α) (name other : String) (value : α) :
    ((bindings.set name value).get? other).isSome =
      (decide (name = other) || (bindings.get? other).isSome) := by
  rw [get?_set]
  by_cases hname : name = other <;> simp [hname]

theorem isSome_get?_setIfNew (bindings : Bindings α) (name other : String) (value : α) :
    ((bindings.setIfNew name value).get? other).isSome =
      (decide (name = other) || (bindings.get? other).isSome) := by
  unfold setIfNew
  split
  · rename_i hfound
    by_cases hname : name = other
    · rw [← hname, hfound]
      simp
    · simp [hname]
  · exact bindings.isSome_get?_set name other value

theorem find_filter (name other : String) (entries : List (String × α)) :
    find other (entries.filter fun entry => entry.1 ≠ name) =
      if name = other then none else find other entries := by
  induction entries with
  | nil => simp [find]
  | cons entry rest ih =>
      obtain ⟨key, old⟩ := entry
      by_cases hk : key = name
      · subst hk
        rw [List.filter_cons_of_neg (by simp), ih, find]
        by_cases ho : key = other <;> simp [ho]
      · rw [List.filter_cons_of_pos (by simpa using hk), find, ih, find]
        by_cases ho : key = other
        · rw [if_pos ho, if_neg fun h => hk (ho.trans h.symm)]
          simp [ho]
        · simp [ho]

theorem get?_erase (bindings : Bindings α) (name other : String) :
    (bindings.erase name).get? other = if name = other then none else bindings.get? other :=
  find_filter name other bindings.entries

theorem find_map {β : Type} (f : α → β) (name : String) (entries : List (String × α)) :
    find name (entries.map fun (key, value) => (key, f value)) = (find name entries).map f := by
  induction entries with
  | nil => rfl
  | cons entry rest ih =>
      simp only [List.map_cons, find, ih]
      split <;> rfl

-- Every value that a name is bound to.
def Each (P : α → Prop) (bindings : Bindings α) : Prop :=
  ∀ name value, bindings.get? name = some value → P value

theorem each_empty (P : α → Prop) : Each P empty := by
  intro name value hvalue
  cases hvalue

theorem Each.set {P : α → Prop} {bindings : Bindings α} (h : Each P bindings) (name : String)
    {value : α} (hvalue : P value) : Each P (bindings.set name value) := by
  intro other found hfound
  rw [get?_set] at hfound
  split at hfound
  · cases hfound
    exact hvalue
  · exact h other found hfound

theorem Each.erase {P : α → Prop} {bindings : Bindings α} (h : Each P bindings) (name : String) :
    Each P (bindings.erase name) := by
  intro other found hfound
  rw [get?_erase] at hfound
  split at hfound
  · contradiction
  · exact h other found hfound

end Bindings

end CandleScript
