import CandleScript.Proofs.Json.Layout
import CandleScript.Proofs.Json.Text

namespace CandleScript.Json

variable {α β σ : Type}

theorem ok_bind {ε : Type} (x : α) (f : α → Except ε β) : (Except.ok x >>= f) = f x := rfl

-- What may follow a number: nothing that could belong to it.
def Ends (rest : List Char) : Prop :=
  ∀ c, rest.head? = some c → c.isDigit = false ∧ c ≠ '.' ∧ c ≠ 'e' ∧ c ≠ 'E'

theorem ends_cons {c : Char} (hc : c.isDigit = false ∧ c ≠ '.' ∧ c ≠ 'e' ∧ c ≠ 'E')
    (rest : List Char) : Ends (c :: rest) := by
  rintro _ ⟨⟩
  exact hc

theorem Ends.append {rest : List Char} (h : Ends rest) {blank : List Char}
    (hblank : ∀ c ∈ blank, isSpace c = true) : Ends (blank ++ rest) := by
  cases blank with
  | nil => exact h
  | cons c more =>
      have hspace := hblank c (List.mem_cons_self ..)
      simp only [isSpace, Bool.or_eq_true, decide_eq_true_eq] at hspace
      rcases hspace with ((rfl | rfl) | rfl) | rfl
      all_goals exact ends_cons (by decide) _

-- Either everything is read, or the text counts as malformed.
def answer : Option α → List Char → Except Fault (α × List Char)
  | some x, rest => .ok (x, rest)
  | none, _ => .error .malformed

theorem skipSpace_append {blank : List Char} (hblank : ∀ c ∈ blank, isSpace c = true)
    (rest : List Char) : skipSpace (blank ++ rest) = skipSpace rest :=
  List.dropWhile_append_of_pos hblank

theorem skipSpace_cons {c : Char} (hc : isSpace c = false) (rest : List Char) :
    skipSpace (c :: rest) = c :: rest :=
  List.dropWhile_cons_of_neg (by simp [hc])

-- A text that starts like a value does.
def Starts (text : List Char) : Prop :=
  ∃ c more, text = c :: more ∧ isSpace c = false ∧ c ≠ ']'

theorem Starts.append {text : List Char} (h : Starts text) (rest : List Char) :
    Starts (text ++ rest) := by
  obtain ⟨c, more, rfl, hspace, hbracket⟩ := h
  exact ⟨c, more ++ rest, rfl, hspace, hbracket⟩

section

variable (item : Reader α) (fuel : Nat) {blank : List Char}
  (hblank : ∀ c ∈ blank, isSpace c = true)

include hblank

theorem itemsFrom_close (first : Bool) (rest : List Char) :
    itemsFrom item (fuel + 1) first (blank ++ ']' :: rest) = .ok ([], rest) := by
  rw [itemsFrom, skipSpace_append hblank, skipSpace_cons rfl]
  rfl

theorem itemsFrom_first {text : List Char} (hstarts : Starts text) :
    itemsFrom item (fuel + 1) true (blank ++ text) = itemsFrom.more item fuel text := by
  obtain ⟨c, more, rfl, hspace, hbracket⟩ := hstarts
  rw [itemsFrom, skipSpace_append hblank, skipSpace_cons hspace]
  split
  · contradiction
  · cases ‹c :: more = _›
    contradiction
  · cases ‹c :: more = _›
    rfl

theorem itemsFrom_comma {text : List Char} (hstarts : Starts text) :
    itemsFrom item (fuel + 1) false (',' :: (blank ++ text)) = itemsFrom.more item fuel text := by
  obtain ⟨c, more, rfl, hspace, hbracket⟩ := hstarts
  have hread : skipSpace (blank ++ c :: more) = c :: more := by
    rw [skipSpace_append hblank, skipSpace_cons hspace]
  rw [itemsFrom, skipSpace_cons rfl]
  split
  next => contradiction
  next heq => cases heq
  next heq =>
    cases heq
    rw [if_neg Bool.false_ne_true, if_pos rfl, hread]
    split
    · contradiction
    · cases ‹c :: more = _›
      contradiction
    · rfl

end

theorem more_answer {item : Reader α} {fuel : Nat} {text rest : List Char} {found : Option α}
    {others : Option (List α)} {last : List Char} (hitem : item text = answer found rest)
    (hmore : itemsFrom item fuel false rest = answer others last) :
    itemsFrom.more item fuel text =
      answer (do return (← found) :: (← others)) last := by
  rw [itemsFrom.more, hitem]
  cases found with
  | none => rfl
  | some value =>
      simp only [answer, ok_bind, hmore]
      cases others with
      | none => rfl
      | some values => rfl

section

variable (layout : Layout) (level : Nat) (item : Reader α) (f : Json → Option α)

theorem ends_laterItems (items : List Json) {blank : List Char}
    (hblank : ∀ c ∈ blank, isSpace c = true) (rest : List Char) :
    Ends (layout.laterItems level items ++ (blank ++ ']' :: rest)) := by
  cases items with
  | nil => exact (ends_cons (by decide) rest).append hblank
  | cons item more => exact ends_cons (by decide) _

theorem length_laterItems (items : List Json) :
    items.length ≤ (layout.laterItems level items).length := by
  induction items with
  | nil => exact Nat.zero_le _
  | cons item more ih =>
      simp only [Layout.laterItems, List.length_cons, List.length_append]
      omega

-- The items of a list after its first one, up to the closing bracket. Each
-- of them needs one step of the bound.
theorem itemsFrom_laterItems (items : List Json)
    (hstarts : ∀ j ∈ items, Starts (layout.chars level j))
    (hitem : ∀ j ∈ items, ∀ rest, Ends rest →
      item (layout.chars level j ++ rest) = answer (f j) rest)
    {blank : List Char} (hblank : ∀ c ∈ blank, isSpace c = true) (rest : List Char)
    (fuel : Nat) (hfuel : items.length < fuel) :
    itemsFrom item fuel false (layout.laterItems level items ++ (blank ++ ']' :: rest)) =
      answer (items.mapM f) rest := by
  induction items generalizing fuel with
  | nil =>
      obtain ⟨fuel, rfl⟩ := Nat.exists_eq_add_one_of_ne_zero (Nat.ne_zero_of_lt hfuel)
      exact itemsFrom_close item fuel hblank false rest
  | cons j more ih =>
      obtain ⟨fuel, rfl⟩ := Nat.exists_eq_add_one_of_ne_zero (Nat.ne_zero_of_lt hfuel)
      have hmore := ih (fun j hj => hstarts j (List.mem_cons_of_mem _ hj))
        (fun j hj => hitem j (List.mem_cons_of_mem _ hj)) fuel (by simpa using hfuel)
      have hfirst := hitem j (List.mem_cons_self ..) _
        (ends_laterItems layout level more hblank rest)
      simp only [Layout.laterItems, List.cons_append, List.append_assoc]
      rw [itemsFrom_comma item fuel (layout.gap_blank level)
        ((hstarts j (List.mem_cons_self ..)).append _), more_answer hfirst hmore, List.mapM_cons]

-- The items of a written list, read from behind the opening bracket.
theorem exists_items_eq (items : List Json)
    (hstarts : ∀ j ∈ items, Starts (layout.chars (level + 1) j))
    (hitem : ∀ j ∈ items, ∀ rest, Ends rest →
      item (layout.chars (level + 1) j ++ rest) = answer (f j) rest) :
    ∃ text, layout.chars level (.list items) = '[' :: text ∧
      ∀ rest, Json.items item (text ++ rest) = answer (items.mapM f) rest := by
  cases items with
  | nil =>
      refine ⟨[']'], by simp only [Layout.chars], ?_⟩
      intro rest
      exact itemsFrom_close item _ (List.forall_mem_nil _) true rest
  | cons j more =>
      refine ⟨_, by rw [Layout.chars], ?_⟩
      intro rest
      have hmore := itemsFrom_laterItems layout (level + 1) item f more
        (fun j hj => hstarts j (List.mem_cons_of_mem _ hj))
        (fun j hj => hitem j (List.mem_cons_of_mem _ hj)) (layout.gap_blank level) rest
      have hfirst := hitem j (List.mem_cons_self ..) _
        (ends_laterItems layout (level + 1) more (layout.gap_blank level) rest)
      simp only [List.append_assoc, List.singleton_append]
      rw [Json.items, itemsFrom_first item _ (layout.gap_blank (level + 1))
        ((hstarts j (List.mem_cons_self ..)).append _), more_answer hfirst (hmore _ _),
        List.mapM_cons]
      have hlength := length_laterItems layout (level + 1) more
      simp only [List.length_append, List.length_cons]
      omega

end

section

variable (step : σ → String → Reader σ) (fuel : Nat) (state : σ) {blank : List Char}

theorem member_quote (key : String) (text : List Char) :
    membersFrom.member step fuel state (quote key ++ text) = (do
      let (state, rest) ← step state key text
      membersFrom step fuel false state rest) := by
  have hkey : textBody (key.toList.flatMap escapeChar ++ '"' :: text) = .ok (key.toList, text) :=
    textBody_escaped key.toList text
  rw [quote, List.cons_append, List.cons_append, List.append_assoc, List.singleton_append,
    membersFrom.member]
  simp only [hkey, ok_bind, String.ofList_toList]

variable (hblank : ∀ c ∈ blank, isSpace c = true)

include hblank

theorem membersFrom_close (first : Bool) (rest : List Char) :
    membersFrom step (fuel + 1) first state (blank ++ '\x7d' :: rest) = .ok (state, rest) := by
  rw [membersFrom, skipSpace_append hblank, skipSpace_cons rfl]
  rfl

theorem membersFrom_first (key : String) (text : List Char) :
    membersFrom step (fuel + 1) true state (blank ++ (quote key ++ text)) = (do
      let (state, rest) ← step state key text
      membersFrom step fuel false state rest) := by
  rw [membersFrom, skipSpace_append hblank, ← member_quote]
  rfl

theorem membersFrom_comma (key : String) (text : List Char) :
    membersFrom step (fuel + 1) false state (',' :: (blank ++ (quote key ++ text))) = (do
      let (state, rest) ← step state key text
      membersFrom step fuel false state rest) := by
  rw [membersFrom, skipSpace_cons rfl, ← member_quote]
  split
  next => contradiction
  next heq => cases heq
  next heq =>
    cases heq
    rw [if_neg Bool.false_ne_true, if_pos rfl, skipSpace_append hblank]
    rfl

end

section

variable (layout : Layout) (level : Nat) (step : σ → String → Reader σ)
  (g : σ → String × Json → Option σ)

-- The text of a member after its key.
def Layout.valueChars (layout : Layout) (level : Nat) (value : Json) : List Char :=
  ':' :: (layout.pad ++ layout.chars level value)

theorem ends_laterMembers (members : List (String × Json)) {blank : List Char}
    (hblank : ∀ c ∈ blank, isSpace c = true) (rest : List Char) :
    Ends (layout.laterMembers level members ++ (blank ++ '\x7d' :: rest)) := by
  cases members with
  | nil => exact (ends_cons (by decide) rest).append hblank
  | cons member more => exact ends_cons (by decide) _

theorem length_laterMembers (members : List (String × Json)) :
    members.length ≤ (layout.laterMembers level members).length := by
  induction members with
  | nil => exact Nat.zero_le _
  | cons member more ih =>
      simp only [Layout.laterMembers, List.length_cons, List.length_append]
      omega

theorem membersFrom_laterMembers (members : List (String × Json)) (state : σ)
    (hstep : ∀ m ∈ members, ∀ state rest, Ends rest →
      step state m.1 (layout.valueChars level m.2 ++ rest) = answer (g state m) rest)
    {blank : List Char} (hblank : ∀ c ∈ blank, isSpace c = true) (rest : List Char)
    (fuel : Nat) (hfuel : members.length < fuel) :
    membersFrom step fuel false state (layout.laterMembers level members ++
      (blank ++ '\x7d' :: rest)) = answer (members.foldlM g state) rest := by
  induction members generalizing state fuel with
  | nil =>
      obtain ⟨fuel, rfl⟩ := Nat.exists_eq_add_one_of_ne_zero (Nat.ne_zero_of_lt hfuel)
      exact membersFrom_close step fuel state hblank false rest
  | cons m more ih =>
      obtain ⟨fuel, rfl⟩ := Nat.exists_eq_add_one_of_ne_zero (Nat.ne_zero_of_lt hfuel)
      have hmore := fun state => ih state (fun m hm => hstep m (List.mem_cons_of_mem _ hm)) fuel
        (by simpa using hfuel)
      have hfirst := hstep m (List.mem_cons_self ..) state _
        (ends_laterMembers layout level more hblank rest)
      obtain ⟨key, value⟩ := m
      simp only [Layout.laterMembers, List.cons_append, List.append_assoc]
      simp only [Layout.valueChars, List.cons_append, List.append_assoc] at hfirst
      rw [membersFrom_comma step fuel state (layout.gap_blank level), hfirst, List.foldlM_cons]
      cases g state (key, value) with
      | none => rfl
      | some next => exact hmore next

-- The first member of a written object, read from behind the opening bracket.
theorem exists_members_cons (key : String) (value : Json) (more : List (String × Json))
    (state : σ) :
    ∃ text, layout.chars level (.object ((key, value) :: more)) = '\x7b' :: text ∧
      ∀ rest, ∃ fuel, more.length < fuel ∧
        Json.members step state (text ++ rest) = (do
          let (state, rest) ← step state key (layout.valueChars (level + 1) value ++
            (layout.laterMembers (level + 1) more ++ (layout.gap level ++ '\x7d' :: rest)))
          membersFrom step fuel false state rest) := by
  refine ⟨_, by rw [Layout.chars], ?_⟩
  intro rest
  simp only [List.append_assoc, List.cons_append, List.nil_append, Layout.valueChars]
  rw [Json.members, membersFrom_first step _ state (layout.gap_blank (level + 1))]
  refine ⟨_, ?_, rfl⟩
  have hlength := length_laterMembers layout (level + 1) more
  simp only [List.length_append, List.length_cons]
  omega

theorem exists_members_eq (members : List (String × Json)) (state : σ)
    (hstep : ∀ m ∈ members, ∀ state rest, Ends rest →
      step state m.1 (layout.valueChars (level + 1) m.2 ++ rest) = answer (g state m) rest) :
    ∃ text, layout.chars level (.object members) = '\x7b' :: text ∧
      ∀ rest, Json.members step state (text ++ rest) = answer (members.foldlM g state) rest := by
  cases members with
  | nil =>
      refine ⟨['\x7d'], by simp only [Layout.chars], ?_⟩
      intro rest
      exact membersFrom_close step _ state (List.forall_mem_nil _) true rest
  | cons m more =>
      obtain ⟨text, htext, hread⟩ := exists_members_cons layout level step m.1 m.2 more state
      refine ⟨text, htext, ?_⟩
      intro rest
      obtain ⟨fuel, hfuel, hmembers⟩ := hread rest
      have hfirst := hstep m (List.mem_cons_self ..) state _
        (ends_laterMembers layout (level + 1) more (layout.gap_blank level) rest)
      rw [hmembers, hfirst, List.foldlM_cons]
      cases g state m with
      | none => rfl
      | some next =>
          exact membersFrom_laterMembers layout (level + 1) step g more next
            (fun m hm => hstep m (List.mem_cons_of_mem _ hm)) (layout.gap_blank level) rest fuel
            hfuel

end

end CandleScript.Json
