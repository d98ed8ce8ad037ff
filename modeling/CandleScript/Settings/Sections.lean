import CandleScript.Bindings
import CandleScript.Text.Lines
import CandleScript.Text.Lowercase
import CandleScript.Text.Trim

namespace CandleScript

-- A settings text: values under keys under sections. A key may stand without
-- a value.
abbrev Sections := Bindings (Bindings (Option String))

namespace Sections

-- The section of the entries before the first heading.
def unnamed : String := "default"

inductive Fault where
  | openHeading
  | emptyKey
  deriving DecidableEq, Repr

structure ReadError where
  line : Nat
  fault : Fault
  deriving DecidableEq, Repr

def ReadError.message (e : ReadError) : String :=
  match e.fault with
  | .openHeading => s!"line {e.line}: Found opening bracket for section name but no closing bracket"
  | .emptyKey => s!"line {e.line}:0: Key cannot be empty"

inductive Line where
  | empty
  | heading (name : String)
  | entry (key : String) (value : Option String)
  deriving DecidableEq, Repr

def isComment (c : Char) : Bool := c = ';' || c = '#'

def isDelimiter (c : Char) : Bool := c = '=' || c = ':'

-- Names of sections and keys do not depend on letter case.
def nameOf (cs : List Char) : String := Text.lowercase (String.ofList (Text.trimChars cs))

-- The characters before the last closing bracket, if there is one.
def bracketed? (cs : List Char) : Option (List Char) :=
  match cs.reverse.dropWhile fun c => c ≠ ']' with
  | [] => none
  | _ :: before => some before.reverse

def readEntry (cs : List Char) : Except Fault Line :=
  match cs.span fun c => !isDelimiter c with
  | (key, []) => .ok (.entry (nameOf key) none)
  | (key, _ :: value) =>
    if nameOf key = "" then .error .emptyKey
    else .ok (.entry (nameOf key) (some (String.ofList (Text.trimChars value))))

-- A line up to its comment. What follows the bracket of a heading is ignored.
def readLine (raw : List Char) : Except Fault Line :=
  match Text.trimChars (raw.takeWhile fun c => !isComment c) with
  | [] => .ok .empty
  | '[' :: rest =>
    match bracketed? rest with
    | some name => .ok (.heading (nameOf name))
    | none => .error .openHeading
  | cs => readEntry cs

def addEntry (sections : Sections) (name key : String) (value : Option String) : Sections :=
  sections.set name (((sections.get? name).getD .empty).set key value)

-- A section that is opened again is continued, and a key that stands again
-- has its last value. `current` is the section of the next entry.
def readLines (sections : Sections) (current : String) (number : Nat) :
    List (List Char) → Except ReadError Sections
  | [] => .ok sections
  | raw :: rest =>
    match readLine raw with
    | .error fault => .error ⟨number, fault⟩
    | .ok .empty => readLines sections current (number + 1) rest
    | .ok (.heading name) => readLines (sections.setIfNew name .empty) name (number + 1) rest
    | .ok (.entry key value) =>
      readLines (addEntry sections current key value) current (number + 1) rest

def read (text : String) : Except ReadError Sections :=
  readLines .empty unnamed 1 (Text.lines text)

-- The value of a key, by names in any letter case.
def value? (sections : Sections) (name key : String) : Option String :=
  match (sections.get? (Text.lowercase name)).bind fun entries =>
    entries.get? (Text.lowercase key) with
  | some value => value
  | none => none

end Sections

end CandleScript
