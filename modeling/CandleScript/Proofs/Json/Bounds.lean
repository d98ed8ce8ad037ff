import CandleScript.Proofs.Json.Layout
import CandleScript.Proofs.Json.Reading
import CandleScript.Proofs.Number.Finite

namespace CandleScript.Json

variable {α β σ : Type}

-- Whatever is read has the property `P`.
structure Yields (P : α → Prop) (result : Except Fault (α × List Char)) : Prop where
  of_ok : ∀ {x : α} {rest : List Char}, result = .ok (x, rest) → P x

theorem yields_ok {P : α → Prop} {x : α} (h : P x) (rest : List Char) :
    Yields P (.ok (x, rest)) := by
  constructor
  rintro _ _ ⟨⟩
  exact h

theorem yields_error (P : α → Prop) (fault : Fault) : Yields P (.error fault) := by
  constructor
  rintro _ _ ⟨⟩

theorem yields_any (result : Except Fault (α × List Char)) : Yields (fun _ => True) result :=
  ⟨fun _ => trivial⟩

theorem Yields.bind {P : α → Prop} {Q : β → Prop} {result : Except Fault (α × List Char)}
    {f : α × List Char → Except Fault (β × List Char)} (h : Yields P result)
    (hf : ∀ x rest, P x → Yields Q (f (x, rest))) : Yields Q (result >>= f) := by
  cases result with
  | error fault => exact yields_error Q fault
  | ok read => exact hf read.1 read.2 (h.of_ok rfl)

theorem Yields.map {P : α → Prop} {Q : β → Prop} {result : Except Fault (α × List Char)}
    {g : α → β} (h : Yields P result) (hg : ∀ x, P x → Q (g x)) :
    Yields Q (result.map fun (x, rest) => (g x, rest)) := by
  cases result with
  | error fault => exact yields_error Q fault
  | ok read => exact yields_ok (hg read.1 (h.of_ok rfl)) read.2

section

variable {P : α → Prop} {item : Reader α} (hitem : ∀ cs, Yields P (item cs))

include hitem

theorem yields_more {fuel : Nat}
    (hlater : ∀ cs, Yields (fun values => ∀ x ∈ values, P x) (itemsFrom item fuel false cs))
    (cs : List Char) :
    Yields (fun values => ∀ x ∈ values, P x) (itemsFrom.more item fuel cs) := by
  rw [itemsFrom.more]
  apply (hitem cs).bind
  intro x rest hx
  apply (hlater rest).bind
  intro values rest hvalues
  exact yields_ok (List.forall_mem_cons.mpr ⟨hx, hvalues⟩) rest

theorem yields_itemsFrom (fuel : Nat) (first : Bool) (cs : List Char) :
    Yields (fun values => ∀ x ∈ values, P x) (itemsFrom item fuel first cs) := by
  induction fuel generalizing first cs with
  | zero => rw [itemsFrom]; exact yields_error _ _
  | succ fuel ih =>
      have hmore := yields_more hitem (ih false)
      rw [itemsFrom]
      split
      · exact yields_error _ _
      · exact yields_ok (List.forall_mem_nil _) _
      · split
        · exact hmore _
        · split
          · split
            · exact yields_error _ _
            · exact yields_error _ _
            · exact hmore _
          · exact yields_error _ _

theorem yields_items (cs : List Char) :
    Yields (fun values => ∀ x ∈ values, P x) (items item cs) :=
  yields_itemsFrom hitem _ _ _

end

section

variable {I : σ → Prop} {step : σ → String → Reader σ}
  (hstep : ∀ state key cs, I state → Yields I (step state key cs))

include hstep

theorem yields_member {fuel : Nat}
    (hlater : ∀ state cs, I state → Yields I (membersFrom step fuel false state cs))
    {state : σ} (hstate : I state) (cs : List Char) :
    Yields I (membersFrom.member step fuel state cs) := by
  unfold membersFrom.member
  split
  · apply (yields_any _).bind
    intro key rest _
    apply (hstep state _ rest hstate).bind
    intro next rest hnext
    exact hlater next rest hnext
  · exact yields_error _ _

-- What every member keeps holds of what the members are folded into.
theorem yields_membersFrom (fuel : Nat) (first : Bool) {state : σ} (hstate : I state)
    (cs : List Char) : Yields I (membersFrom step fuel first state cs) := by
  induction fuel generalizing first state cs with
  | zero => rw [membersFrom]; exact yields_error _ _
  | succ fuel ih =>
      have hmember := yields_member hstep (fun _ cs hstate => ih false hstate cs) hstate
      rw [membersFrom]
      split
      · exact yields_error _ _
      · exact yields_ok hstate _
      · split
        · exact hmember _
        · split
          · split
            · exact yields_error _ _
            · exact hmember _
          · exact yields_error _ _

theorem yields_members {state : σ} (hstate : I state) (cs : List Char) :
    Yields I (members step state cs) :=
  yields_membersFrom hstep _ _ hstate _

end

mutual

-- A value all of whose numbers are finite as doubles.
def Finite : Json → Prop
  | .integer n => (Float.ofInt n).isFinite = true
  | .real x => x.isFinite = true
  | .list items => FiniteItems items
  | .object members => FiniteMembers members
  | .null | .bool _ | .text _ => True

def FiniteItems : List Json → Prop
  | [] => True
  | item :: rest => item.Finite ∧ FiniteItems rest

def FiniteMembers : List (String × Json) → Prop
  | [] => True
  | (_, value) :: rest => value.Finite ∧ FiniteMembers rest

end

-- A value with finite numbers whose brackets nest at most `room` deep.
structure Fits (room : Nat) (value : Json) : Prop where
  depth_le : value.depth ≤ room
  finite : value.Finite

theorem fits_list_iff {room : Nat} {items : List Json} :
    Fits (room + 1) (.list items) ↔ ∀ item ∈ items, Fits room item := by
  induction items with
  | nil => exact ⟨fun _ => List.forall_mem_nil _, fun _ => ⟨Nat.le_add_left 1 room, trivial⟩⟩
  | cons item rest ih =>
      rw [List.forall_mem_cons, ← ih]
      constructor
      · rintro ⟨hdepth, hitem, hrest⟩
        simp only [depth, depthOfItems] at hdepth
        refine ⟨⟨by omega, hitem⟩, ⟨?_, hrest⟩⟩
        simp only [depth]
        omega
      · rintro ⟨⟨hdepth, hitem⟩, ⟨hdepth', hrest⟩⟩
        refine ⟨?_, hitem, hrest⟩
        simp only [depth, depthOfItems] at hdepth' ⊢
        omega

theorem fits_object_iff {room : Nat} {members : List (String × Json)} :
    Fits (room + 1) (.object members) ↔ ∀ m ∈ members, Fits room m.2 := by
  induction members with
  | nil => exact ⟨fun _ => List.forall_mem_nil _, fun _ => ⟨Nat.le_add_left 1 room, trivial⟩⟩
  | cons m rest ih =>
      rw [List.forall_mem_cons, ← ih]
      constructor
      · rintro ⟨hdepth, hvalue, hrest⟩
        simp only [depth, depthOfMembers] at hdepth
        refine ⟨⟨by omega, hvalue⟩, ⟨?_, hrest⟩⟩
        simp only [depth]
        omega
      · rintro ⟨⟨hdepth, hvalue⟩, ⟨hdepth', hrest⟩⟩
        refine ⟨?_, hvalue, hrest⟩
        simp only [depth, depthOfMembers] at hdepth' ⊢
        omega

theorem Fits.of_list {room : Nat} {items : List Json} (h : Fits room (.list items)) :
    ∃ inner, room = inner + 1 ∧ ∀ item ∈ items, Fits inner item := by
  cases room with
  | zero => exact absurd h.depth_le (Nat.not_succ_le_zero _)
  | succ inner => exact ⟨inner, rfl, fits_list_iff.mp h⟩

theorem Fits.of_object {room : Nat} {members : List (String × Json)}
    (h : Fits room (.object members)) :
    ∃ inner, room = inner + 1 ∧ ∀ m ∈ members, Fits inner m.2 := by
  cases room with
  | zero => exact absurd h.depth_le (Nat.not_succ_le_zero _)
  | succ inner => exact ⟨inner, rfl, fits_object_iff.mp h⟩

theorem natAbs_integer?_le {n : NumberText} {value : Int} (h : n.integer? = some value) :
    value.natAbs ≤ 2 ^ 64 := by
  simp only [NumberText.integer?] at h
  split at h
  · cases h
  · split at h
    · split at h
      · rename_i hsize
        cases h
        have hle : Number.digitsValue n.whole ≤ 2 ^ 63 := hsize.2
        omega
      · cases h
    · split at h
      · rename_i hsize
        cases h
        have hlt : Number.digitsValue n.whole < 2 ^ 64 := hsize
        omega
      · cases h

theorem NumberText.isFinite_toFloat {n : NumberText} (h : n.toFloat.isInf = false) :
    n.toFloat.isFinite = true := by
  unfold toFloat at h ⊢
  split
  · rename_i hnegative
    rw [if_pos hnegative] at h
    rcases n.toDecimal.isFinite_or_eq_infinity with hfinite | hinfinity
    · exact Number.isFinite_neg hfinite
    · rw [hinfinity] at h
      cases h
  · rename_i hpositive
    rw [if_neg hpositive] at h
    rcases n.toDecimal.isFinite_or_eq_infinity with hfinite | hinfinity
    · exact hfinite
    · rw [hinfinity] at h
      cases h

-- A number that is too large is refused, so that the others are finite.
theorem NumberText.fits_toJson {n : NumberText} {value : Json} (h : n.toJson = .ok value)
    (room : Nat) : Fits room value := by
  unfold toJson at h
  split at h
  · rename_i integer hinteger
    cases h
    exact ⟨Nat.zero_le room, Number.isFinite_ofInt (natAbs_integer?_le hinteger)⟩
  · split at h
    · cases h
    · rename_i hfinite
      cases h
      exact ⟨Nat.zero_le room, isFinite_toFloat (Bool.eq_false_iff.mpr hfinite)⟩

theorem yields_number (room : Nat) (cs : List Char) : Yields (Fits room) (number cs) := by
  rw [number]
  apply (yields_any _).bind
  intro n rest _
  dsimp only
  cases hvalue : n.toJson with
  | error fault => exact yields_error _ fault
  | ok value => exact yields_ok (n.fits_toJson hvalue room) rest

theorem yields_shallow {room : Nat} {list object : Reader Json}
    (hlist : ∀ cs, Yields (Fits room) (list cs)) (hobject : ∀ cs, Yields (Fits room) (object cs))
    (cs : List Char) : Yields (Fits room) (shallow list object cs) := by
  have hnone : 0 ≤ room := Nat.zero_le room
  unfold shallow
  split
  · exact yields_error _ _
  · exact (yields_any _).map fun _ _ => (⟨hnone, trivial⟩ : Fits room .null)
  · exact (yields_any _).map fun _ _ => (⟨hnone, trivial⟩ : Fits room (.bool true))
  · exact (yields_any _).map fun _ _ => (⟨hnone, trivial⟩ : Fits room (.bool false))
  · exact (yields_any _).map fun _ _ => (⟨hnone, trivial⟩ : Fits room (.text _))
  · exact hlist _
  · exact hobject _
  · split
    · exact yields_number room _
    · exact yields_error _ _

theorem yields_memberInto {room : Nat} {value : Reader Json}
    (hvalue : ∀ cs, Yields (Fits room) (value cs)) (found : List (String × Json)) (key : String)
    (cs : List Char) (hfound : ∀ m ∈ found, Fits room m.2) :
    Yields (fun found => ∀ m ∈ found, Fits room m.2) (memberInto value found key cs) := by
  rw [memberInto]
  apply (yields_any _).bind
  intro _ rest _
  apply (hvalue rest).bind
  intro x rest hx
  apply yields_ok
  exact List.forall_mem_cons.mpr ⟨hx, hfound⟩

-- Every value that is read fits into the room that there was for it. Induction on
-- the room: each pair of brackets takes one of it.
theorem yields_value (room : Nat) (cs : List Char) : Yields (Fits room) (value room cs) := by
  induction room generalizing cs with
  | zero => exact yields_shallow (fun _ => yields_error _ _) (fun _ => yields_error _ _) cs
  | succ room ih =>
      refine yields_shallow (fun cs => ?_) (fun cs => ?_) cs
      · exact (yields_items ih cs).map fun _ => fits_list_iff.mpr
      · have hmembers := yields_members (yields_memberInto ih) (List.forall_mem_nil _) cs
        rw [objectOf]
        refine Yields.map (g := fun found => object found.reverse) hmembers ?_
        intro found hfound
        apply fits_object_iff.mpr
        intro m hm
        exact hfound m (List.mem_reverse.mp hm)

end CandleScript.Json
