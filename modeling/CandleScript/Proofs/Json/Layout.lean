import CandleScript.Json.Read
import CandleScript.Json.Write

namespace CandleScript.Json

mutual

-- How deep the brackets of a value nest.
def depth : Json → Nat
  | .list items => depthOfItems items + 1
  | .object members => depthOfMembers members + 1
  | _ => 0

def depthOfItems : List Json → Nat
  | [] => 0
  | item :: rest => max item.depth (depthOfItems rest)

def depthOfMembers : List (String × Json) → Nat
  | [] => 0
  | (_, value) :: rest => max value.depth (depthOfMembers rest)

end

-- The space that a document has between its parts: before the items of a list
-- or object and before its closing bracket, which depends on the level, and
-- after a colon.
structure Layout where
  gap : (level : Nat) → List Char
  pad : List Char
  gap_blank : ∀ level, ∀ c ∈ gap level, isSpace c = true
  pad_blank : ∀ c ∈ pad, isSpace c = true

def Layout.compact : Layout := ⟨fun _ => [], [], by simp, by simp⟩

def Layout.pretty : Layout where
  gap := newline
  pad := [' ']
  gap_blank := by
    intro level c hc
    rcases List.mem_cons.mp hc with hc | hc
    · rw [hc]
      rfl
    · rw [(List.mem_replicate.mp hc).2]
      rfl
  pad_blank := by
    intro c hc
    rw [List.mem_singleton.mp hc]
    rfl

namespace Layout

@[simp] theorem gap_compact (level : Nat) : compact.gap level = [] := rfl

@[simp] theorem pad_compact : compact.pad = [] := rfl

@[simp] theorem gap_pretty (level : Nat) : pretty.gap level = newline level := rfl

@[simp] theorem pad_pretty : pretty.pad = [' '] := rfl

mutual

-- The text of a value that stands on the given level.
def chars (layout : Layout) (level : Nat) : Json → List Char
  | .list [] => ['[', ']']
  | .list (first :: rest) =>
    '[' :: (layout.gap (level + 1) ++ layout.chars (level + 1) first ++
      layout.laterItems (level + 1) rest ++ layout.gap level ++ [']'])
  | .object [] => ['\x7b', '\x7d']
  | .object ((key, value) :: rest) =>
    '\x7b' :: (layout.gap (level + 1) ++ quote key ++ ':' :: (layout.pad ++
      layout.chars (level + 1) value) ++ layout.laterMembers (level + 1) rest ++
      layout.gap level ++ ['\x7d'])
  | value => scalarText value

-- The items after the first one, and the members after the first one.
def laterItems (layout : Layout) (level : Nat) : List Json → List Char
  | [] => []
  | item :: rest =>
    ',' :: (layout.gap level ++ layout.chars level item ++ layout.laterItems level rest)

def laterMembers (layout : Layout) (level : Nat) : List (String × Json) → List Char
  | [] => []
  | (key, value) :: rest =>
    ',' :: (layout.gap level ++ quote key ++ ':' :: (layout.pad ++ layout.chars level value) ++
      layout.laterMembers level rest)

end

mutual

theorem chars_compact : ∀ (level : Nat) (value : Json),
    compact.chars level value = compactChars value
  | level, .list [] => by simp only [chars, compactChars]
  | level, .list (first :: rest) => by
    simp only [chars, compactChars, chars_compact (level + 1) first,
      laterItems_compact (level + 1) rest, gap_compact, List.nil_append, List.append_nil,
      List.cons_append]
  | level, .object [] => by simp only [chars, compactChars]
  | level, .object ((key, value) :: rest) => by
    simp only [chars, compactChars, chars_compact (level + 1) value,
      laterMembers_compact (level + 1) rest, gap_compact, pad_compact, List.nil_append,
      List.append_nil, List.cons_append]
  | level, .null | level, .bool _ | level, .integer _ | level, .real _ | level, .text _ => by
    simp only [chars, compactChars]

theorem laterItems_compact : ∀ (level : Nat) (items : List Json),
    compact.laterItems level items = compactItems items
  | level, [] => by simp only [laterItems, compactItems]
  | level, item :: rest => by
    simp only [laterItems, compactItems, chars_compact level item, laterItems_compact level rest,
      gap_compact, List.nil_append, List.cons_append]

theorem laterMembers_compact : ∀ (level : Nat) (members : List (String × Json)),
    compact.laterMembers level members = compactMembers members
  | level, [] => by simp only [laterMembers, compactMembers]
  | level, (key, value) :: rest => by
    simp only [laterMembers, compactMembers, chars_compact level value,
      laterMembers_compact level rest, gap_compact, pad_compact,
      List.nil_append, List.cons_append]

end

mutual

theorem chars_pretty : ∀ (level : Nat) (value : Json),
    pretty.chars level value = prettyChars level value
  | level, .list [] => by simp only [chars, prettyChars]
  | level, .list (first :: rest) => by
    simp only [chars, prettyChars, chars_pretty (level + 1) first,
      laterItems_pretty (level + 1) rest, gap_pretty, List.cons_append]
  | level, .object [] => by simp only [chars, prettyChars]
  | level, .object ((key, value) :: rest) => by
    simp only [chars, prettyChars, chars_pretty (level + 1) value,
      laterMembers_pretty (level + 1) rest, gap_pretty, pad_pretty,
      List.cons_append, List.nil_append]
  | level, .null | level, .bool _ | level, .integer _ | level, .real _ | level, .text _ => by
    simp only [chars, prettyChars]

theorem laterItems_pretty : ∀ (level : Nat) (items : List Json),
    pretty.laterItems level items = prettyItems level items
  | level, [] => by simp only [laterItems, prettyItems]
  | level, item :: rest => by
    simp only [laterItems, prettyItems, chars_pretty level item, laterItems_pretty level rest,
      gap_pretty, List.cons_append]

theorem laterMembers_pretty : ∀ (level : Nat) (members : List (String × Json)),
    pretty.laterMembers level members = prettyMembers level members
  | level, [] => by simp only [laterMembers, prettyMembers]
  | level, (key, value) :: rest => by
    simp only [laterMembers, prettyMembers, chars_pretty level value,
      laterMembers_pretty level rest, gap_pretty, pad_pretty,
      List.cons_append, List.nil_append]

end

end Layout

end CandleScript.Json
