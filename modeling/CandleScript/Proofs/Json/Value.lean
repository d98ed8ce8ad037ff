import CandleScript.Proofs.Json.Reading

namespace CandleScript.Json

-- A number whose text is read as that number, wherever it ends.
structure ReadsBack (x : Float) : Prop where
  starts : ∃ c more, (Number.documentText x).toList = c :: more ∧ (c = '-' ∨ c.isDigit)
  reads : ∀ rest, Ends rest →
    number ((Number.documentText x).toList ++ rest) = .ok (.real x, rest)

mutual

-- A value all of whose numbers are doubles that read back.
def Readable : Json → Prop
  | .integer _ => False
  | .real x => ReadsBack x
  | .list items => ReadableItems items
  | .object members => ReadableMembers members
  | _ => True

def ReadableItems : List Json → Prop
  | [] => True
  | item :: rest => item.Readable ∧ ReadableItems rest

def ReadableMembers : List (String × Json) → Prop
  | [] => True
  | (_, value) :: rest => value.Readable ∧ ReadableMembers rest

end

theorem readable_of_mem_items {items : List Json} (h : ReadableItems items) :
    ∀ item ∈ items, item.Readable := by
  induction items with
  | nil => exact List.forall_mem_nil _
  | cons item rest ih =>
      rw [List.forall_mem_cons]
      exact ⟨h.1, ih h.2⟩

theorem readable_of_mem_members {members : List (String × Json)} (h : ReadableMembers members) :
    ∀ m ∈ members, m.2.Readable := by
  induction members with
  | nil => exact List.forall_mem_nil _
  | cons m rest ih =>
      rw [List.forall_mem_cons]
      exact ⟨h.1, ih h.2⟩

-- What a reader with `room` levels of brackets makes of a value.
def within (room : Nat) (value : Json) : Option Json :=
  if value.depth ≤ room then some value else none

theorem within_of_le {room : Nat} {value : Json} (h : value.depth ≤ room) :
    within room value = some value := if_pos h

theorem within_of_not_le {room : Nat} {value : Json} (h : ¬value.depth ≤ room) :
    within room value = none := if_neg h

theorem mapM_within (room : Nat) (items : List Json) :
    items.mapM (within room) = if depthOfItems items ≤ room then some items else none := by
  induction items with
  | nil => rfl
  | cons item rest ih =>
      rw [List.mapM_cons, ih]
      by_cases hitem : item.depth ≤ room
      · rw [within_of_le hitem]
        by_cases hrest : depthOfItems rest ≤ room <;>
          simp only [depthOfItems, Nat.max_le, hitem, hrest, true_and, if_true, if_false] <;> rfl
      · rw [within_of_not_le hitem]
        simp only [depthOfItems, Nat.max_le, hitem, false_and, if_false]
        rfl

-- A step of a fold over members that goes on only as long as the values fit.
def addWithin {σ : Type} (room : Nat) (add : σ → String × Json → σ) (state : σ)
    (m : String × Json) : Option σ :=
  (within room m.2).map fun value => add state (m.1, value)

theorem foldlM_addWithin {σ : Type} (room : Nat) (add : σ → String × Json → σ)
    (members : List (String × Json)) (state : σ) :
    members.foldlM (addWithin room add) state =
      if depthOfMembers members ≤ room then some (members.foldl add state) else none := by
  induction members generalizing state with
  | nil => rfl
  | cons m rest ih =>
      rw [List.foldlM_cons, addWithin]
      by_cases hvalue : m.2.depth ≤ room
      · rw [within_of_le hvalue, Option.map_some, Option.bind_eq_bind, Option.bind_some, ih]
        by_cases hrest : depthOfMembers rest ≤ room <;>
          simp only [depthOfMembers, Nat.max_le, hvalue, hrest, true_and, if_true, if_false,
            List.foldl_cons]
      · rw [within_of_not_le hvalue]
        simp only [depthOfMembers, Nat.max_le, hvalue, false_and, if_false]
        rfl

-- Numbers start with a minus sign or a digit, and nothing else does.
theorem ne_of_digit {c d : Char} (hc : c = '-' ∨ c.isDigit) (hminus : d ≠ '-')
    (hdigit : d.isDigit = false) : c ≠ d := by
  rintro rfl
  rcases hc with rfl | hc
  · contradiction
  · rw [hdigit] at hc
    contradiction

theorem isSpace_of_digit {c : Char} (hc : c = '-' ∨ c.isDigit) : isSpace c = false := by
  simp only [isSpace, Bool.or_eq_false_iff, decide_eq_false_iff_not]
  exact ⟨⟨⟨ne_of_digit hc (by decide) rfl, ne_of_digit hc (by decide) rfl⟩,
    ne_of_digit hc (by decide) rfl⟩, ne_of_digit hc (by decide) rfl⟩

-- What a value is written with tells it from the end of a list.
theorem starts_chars (layout : Layout) (level : Nat) {value : Json} (h : value.Readable) :
    Starts (layout.chars level value) := by
  cases value with
  | null => exact ⟨'n', "ull".toList, by simp [Layout.chars, scalarText], by decide⟩
  | bool b =>
      cases b with
      | true => exact ⟨'t', "rue".toList, by simp [Layout.chars, scalarText], by decide⟩
      | false => exact ⟨'f', "alse".toList, by simp [Layout.chars, scalarText], by decide⟩
  | integer n => exact h.elim
  | real x =>
      obtain ⟨c, more, htext, hc⟩ := h.starts
      refine ⟨c, more, ?_, isSpace_of_digit hc, ne_of_digit hc (by decide) rfl⟩
      simp only [Layout.chars, scalarText]
      exact htext
  | text s => exact ⟨'"', _, by simp only [Layout.chars, scalarText]; rfl, by decide⟩
  | list items =>
      cases items with
      | nil => exact ⟨'[', _, by rw [Layout.chars], by decide⟩
      | cons item rest => exact ⟨'[', _, by rw [Layout.chars], by decide⟩
  | object members =>
      cases members with
      | nil => exact ⟨'\x7b', _, by rw [Layout.chars], by decide⟩
      | cons m rest => exact ⟨'\x7b', _, by rw [Layout.chars], by decide⟩

theorem shallow_number (list object : Reader Json) {c : Char} (hc : c = '-' ∨ c.isDigit)
    (rest : List Char) : shallow list object (c :: rest) = number (c :: rest) := by
  rw [shallow, skipSpace_cons (isSpace_of_digit hc)]
  split
  · contradiction
  iterate 6
    · cases ‹c :: rest = _›
      exact absurd rfl (ne_of_digit hc (by decide) rfl)
  · cases ‹c :: rest = _›
    rw [if_pos hc]

theorem word_append (expected rest : List Char) :
    word expected (expected ++ rest) = .ok ((), rest) := by
  induction expected with
  | nil => rfl
  | cons e es ih => rw [List.cons_append, word, if_pos rfl, ih]

section

variable (layout : Layout) (level : Nat) (list object : Reader Json)

-- Values without brackets are read alike, whatever is done about brackets.
theorem shallow_scalar {value : Json} (hvalue : value.Readable) (hdepth : value.depth = 0)
    {rest : List Char} (hrest : Ends rest) :
    shallow list object (layout.chars level value ++ rest) = .ok (value, rest) := by
  cases value with
  | null =>
      have hword := word_append "ull".toList rest
      have htext : "null".toList = 'n' :: "ull".toList := by simp
      simp only [Layout.chars, scalarText, htext, List.cons_append]
      rw [shallow, skipSpace_cons rfl]
      simp only [hword]
      rfl
  | bool b =>
      have hword := word_append "rue".toList rest
      have hword' := word_append "alse".toList rest
      have htext : "true".toList = 't' :: "rue".toList := by simp
      have htext' : "false".toList = 'f' :: "alse".toList := by simp
      cases b with
      | true =>
          simp only [Layout.chars, scalarText, if_true, htext, List.cons_append]
          rw [shallow, skipSpace_cons rfl]
          simp only [hword]
          rfl
      | false =>
          simp only [Layout.chars, scalarText, Bool.false_eq_true, if_false, htext',
            List.cons_append]
          rw [shallow, skipSpace_cons rfl]
          simp only [hword']
          rfl
  | integer n => exact hvalue.elim
  | real x =>
      obtain ⟨c, more, htext, hc⟩ := hvalue.starts
      have hread := hvalue.reads rest hrest
      simp only [Layout.chars, scalarText]
      rw [htext, List.cons_append] at hread ⊢
      rw [shallow_number list object hc, hread]
  | text s =>
      have hbody : textBody (s.toList.flatMap escapeChar ++ '"' :: rest) = .ok (s.toList, rest) :=
        textBody_escaped s.toList rest
      simp only [Layout.chars, scalarText, quote, List.cons_append, List.append_assoc,
        List.nil_append]
      rw [shallow, skipSpace_cons rfl]
      simp only [hbody]
      change Except.ok (text (String.ofList s.toList), rest) = _
      rw [String.ofList_toList]
  | list items => exact absurd hdepth (by simp [depth])
  | object members => exact absurd hdepth (by simp [depth])

theorem shallow_list {text : List Char} :
    shallow list object ('[' :: text) = list text := by
  rw [shallow, skipSpace_cons rfl]
  rfl

theorem shallow_object {text : List Char} :
    shallow list object ('\x7b' :: text) = object text := by
  rw [shallow, skipSpace_cons rfl]
  rfl

end

theorem value_append (room : Nat) {blank : List Char} (hblank : ∀ c ∈ blank, isSpace c = true)
    (rest : List Char) : Json.value room (blank ++ rest) = Json.value room rest := by
  cases room <;> simp only [Json.value, shallow, skipSpace_append hblank]

theorem colon_valueChars (layout : Layout) (level : Nat) (value : Json) (rest : List Char) :
    colon (layout.valueChars level value ++ rest) =
      .ok ((), layout.pad ++ (layout.chars level value ++ rest)) := by
  rw [Layout.valueChars, List.cons_append, colon, skipSpace_cons rfl, List.append_assoc]
  rfl

theorem memberInto_valueChars (layout : Layout) (room level : Nat) {value : Json} {rest : List Char}
    (hvalue : Json.value room (layout.chars level value ++ rest) = answer (within room value) rest)
    (found : List (String × Json)) (key : String) :
    memberInto (Json.value room) found key (layout.valueChars level value ++ rest) =
      answer (addWithin room (fun found m => m :: found) found (key, value)) rest := by
  rw [memberInto, colon_valueChars, ok_bind, addWithin]
  simp only [value_append room layout.pad_blank, hvalue]
  cases within room value <;> rfl

-- A written value is read back as it is, if its brackets do not nest too deep.
theorem value_chars (layout : Layout) (room level : Nat) {value : Json} (hvalue : value.Readable)
    {rest : List Char} (hrest : Ends rest) :
    Json.value room (layout.chars level value ++ rest) = answer (within room value) rest := by
  -- each bracket takes one level, and without room only scalars are read
  induction room generalizing level value rest with
  | zero =>
      cases value with
      | list items =>
          cases items <;>
            rw [Layout.chars, List.cons_append, Json.value, shallow_list,
              within_of_not_le (Nat.not_succ_le_zero _)] <;> rfl
      | object members =>
          cases members <;>
            rw [Layout.chars, List.cons_append, Json.value, shallow_object,
              within_of_not_le (Nat.not_succ_le_zero _)] <;> rfl
      | null | bool _ | integer _ | real _ | text _ =>
          rw [Json.value, shallow_scalar layout level _ _ hvalue rfl hrest]
          rfl
  | succ room ih =>
      cases value with
      | list items =>
          have hreadable := readable_of_mem_items hvalue
          obtain ⟨text, htext, hread⟩ := exists_items_eq layout level _ (within room) items
            (fun j hj => starts_chars layout (level + 1) (hreadable j hj))
            (fun j hj rest hrest => ih (level + 1) (hreadable j hj) hrest)
          rw [htext, List.cons_append, Json.value, shallow_list, listOf, hread, mapM_within]
          by_cases hfits : depthOfItems items ≤ room
          · rw [if_pos hfits, within_of_le (Nat.succ_le_succ hfits)]
            rfl
          · rw [if_neg hfits, within_of_not_le (fun h => hfits (Nat.le_of_succ_le_succ h))]
            rfl
      | object members =>
          have hreadable := readable_of_mem_members hvalue
          obtain ⟨text, htext, hread⟩ := exists_members_eq layout level
            (memberInto (Json.value room)) (addWithin room fun found m => m :: found) members []
            (fun m hm found rest hrest => memberInto_valueChars layout room (level + 1)
              (ih (level + 1) (hreadable m hm) hrest) found m.1)
          rw [htext, List.cons_append, Json.value, shallow_object, objectOf, hread,
            foldlM_addWithin, List.foldl_flip_cons_eq_append', List.append_nil]
          by_cases hfits : depthOfMembers members ≤ room
          · rw [if_pos hfits, within_of_le (Nat.succ_le_succ hfits)]
            simp only [answer, Except.map, List.reverse_reverse]
          · rw [if_neg hfits, within_of_not_le (fun h => hfits (Nat.le_of_succ_le_succ h))]
            rfl
      | null | bool _ | integer _ | real _ | text _ =>
          rw [Json.value, shallow_scalar layout level _ _ hvalue rfl hrest]
          rfl

end CandleScript.Json
