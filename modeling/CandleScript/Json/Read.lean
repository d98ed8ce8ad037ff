import CandleScript.Json.Scalar

namespace CandleScript.Json

def isSpace (c : Char) : Bool := c = ' ' || c = '\n' || c = '\t' || c = '\r'

def skipSpace (cs : List Char) : List Char := cs.dropWhile isSpace

-- The items after an opening bracket. `first` says that none was read yet, so
-- that no comma is due. The number of characters bounds the number of items.
def itemsFrom {α : Type} (item : Reader α) : (fuel : Nat) → (first : Bool) → Reader (List α)
  | 0, _, _ => .error .truncated
  | fuel + 1, first, cs =>
    match skipSpace cs with
    | [] => .error .truncated
    | ']' :: rest => .ok ([], rest)
    | c :: rest =>
      if first then more fuel (c :: rest)
      else if c = ',' then
        match skipSpace rest with
        | [] => .error .truncated
        | ']' :: _ => .error .malformed
        | next => more fuel next
      else .error .malformed
where
  more (fuel : Nat) (cs : List Char) : Except Fault (List α × List Char) := do
    let (value, rest) ← item cs
    let (values, rest) ← itemsFrom item fuel false rest
    return (value :: values, rest)

def items {α : Type} (item : Reader α) : Reader (List α) :=
  fun cs => itemsFrom item (cs.length + 1) true cs

-- The members after an opening brace, folded from left to right. The step is
-- given the key and the text after it, where the colon is due.
def membersFrom {σ : Type} (step : σ → String → Reader σ) :
    (fuel : Nat) → (first : Bool) → σ → Reader σ
  | 0, _, _, _ => .error .truncated
  | fuel + 1, first, state, cs =>
    match skipSpace cs with
    | [] => .error .truncated
    | '\x7d' :: rest => .ok (state, rest)
    | c :: rest =>
      if first then member fuel state (c :: rest)
      else if c = ',' then
        match skipSpace rest with
        | [] => .error .truncated
        | next => member fuel state next
      else .error .malformed
where
  member (fuel : Nat) (state : σ) (cs : List Char) : Except Fault (σ × List Char) :=
    match cs with
    | '"' :: rest => do
      let (key, rest) ← textBody rest
      let (state, rest) ← step state (String.ofList key) rest
      membersFrom step fuel false state rest
    | _ => .error .malformed

def members {σ : Type} (step : σ → String → Reader σ) (state : σ) : Reader σ :=
  fun cs => membersFrom step (cs.length + 1) true state cs

def colon : Reader Unit := fun cs =>
  match skipSpace cs with
  | [] => .error .truncated
  | ':' :: rest => .ok ((), rest)
  | _ => .error .malformed

-- A value whose lists and objects are left to the two given readers, which
-- start after the opening bracket.
def shallow (list object : Reader Json) : Reader Json := fun cs =>
  match skipSpace cs with
  | [] => .error .truncated
  | 'n' :: rest => (word "ull".toList rest).map fun (_, rest) => (.null, rest)
  | 't' :: rest => (word "rue".toList rest).map fun (_, rest) => (.bool true, rest)
  | 'f' :: rest => (word "alse".toList rest).map fun (_, rest) => (.bool false, rest)
  | '"' :: rest => (textBody rest).map fun (value, rest) => (.text (String.ofList value), rest)
  | '[' :: rest => list rest
  | '\x7b' :: rest => object rest
  | c :: rest => if c = '-' ∨ c.isDigit then number (c :: rest) else .error .malformed

def tooDeep : Reader Json := fun _ => .error .malformed

def listOf (item : Reader Json) : Reader Json := fun cs =>
  (items item cs).map fun (values, rest) => (.list values, rest)

-- The member with the given key goes in front of those found before it.
def memberInto (value : Reader Json) (found : List (String × Json)) (key : String) :
    Reader (List (String × Json)) := fun cs => do
  let (_, rest) ← colon cs
  let (value, rest) ← value rest
  return ((key, value) :: found, rest)

def objectOf (value : Reader Json) : Reader Json := fun cs =>
  (members (memberInto value) [] cs).map fun (found, rest) => (.object found.reverse, rest)

-- A value whose brackets nest at most `room` deep.
def value : (room : Nat) → Reader Json
  | 0 => shallow tooDeep tooDeep
  | room + 1 => shallow (listOf (value room)) (objectOf (value room))

-- Skipping checks the form of a value and nothing else: numbers may be too
-- large and brackets may nest as deep as they like.
def skipWith (nested : Reader Unit) : Reader Unit := fun cs =>
  match skipSpace cs with
  | [] => .error .truncated
  | 'n' :: rest => word "ull".toList rest
  | 't' :: rest => word "rue".toList rest
  | 'f' :: rest => word "alse".toList rest
  | '"' :: rest => skipTextBody rest
  | '[' :: rest => (items nested rest).map fun (_, rest) => ((), rest)
  | '\x7b' :: rest => skipMembers rest
  | c :: rest => if c = '-' ∨ c.isDigit then skipNumber (c :: rest) else .error .malformed
where
  skipMembers : Reader Unit :=
    members (fun _ _ cs => do
      let (_, rest) ← colon cs
      nested rest) ()

def skipFrom : (fuel : Nat) → Reader Unit
  | 0 => fun _ => .error .truncated
  | fuel + 1 => skipWith (skipFrom fuel)

def skip : Reader Unit := fun cs => skipFrom (cs.length + 1) cs

-- Only space may follow the document.
def finish (rest : List Char) : Except Fault Unit :=
  if skipSpace rest = [] then .ok () else .error .malformed

def parse (room : Nat) (text : String) : Except Fault Json := do
  let (result, rest) ← value room text.toList
  finish rest
  return result

end CandleScript.Json
