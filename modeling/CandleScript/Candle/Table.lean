namespace CandleScript.Table

-- How far a text has been read: the line, counted from one, and the bytes
-- passed so far.
structure Cursor where
  line : Nat
  byte : Nat
  deriving DecidableEq, Repr

def Cursor.start : Cursor := ⟨1, 0⟩

def Cursor.pass (cursor : Cursor) (c : Char) : Cursor :=
  ⟨if c = '\n' then cursor.line + 1 else cursor.line, cursor.byte + c.utf8Size⟩

-- The fields of a row and where the reading of it began, which is before any
-- empty lines that are skipped.
structure Row where
  start : Cursor
  fields : List String
  deriving DecidableEq, Repr

-- Where in a row the next character stands. `afterQuote` follows a quote
-- within a quoted field: the field may end there, or the quote was doubled.
inductive Mode where
  | rowStart
  | fieldStart
  | plain
  | quoted
  | afterQuote
  deriving DecidableEq, Repr

-- A row that is being read. Its fields and the characters of the last field
-- are held in reverse.
structure OpenRow where
  start : Cursor
  fields : List String
  field : List Char

namespace OpenRow

def opened (cursor : Cursor) : OpenRow := ⟨cursor, [], []⟩

def push (row : OpenRow) (c : Char) : OpenRow := { row with field := c :: row.field }

def endField (row : OpenRow) : OpenRow :=
  { row with fields := String.ofList row.field.reverse :: row.fields, field := [] }

def close (row : OpenRow) : Row := ⟨row.start, row.endField.fields.reverse⟩

end OpenRow

def isBreak (c : Char) : Bool := c = '\n' || c = '\r'

-- A line break ends the row unless it stands within quotes or on an empty
-- line. Of a break of two characters the second one is an empty line.
def endsRow (mode : Mode) (c : Char) : Bool := isBreak c && mode ≠ .quoted && mode ≠ .rowStart

-- A character outside of quotes; a quote counts only at the front of a field.
def stepPlain (row : OpenRow) (c : Char) : Mode × OpenRow :=
  if c = ',' then (.fieldStart, row.endField) else (.plain, row.push c)

def stepFront (row : OpenRow) (c : Char) : Mode × OpenRow :=
  if c = '"' then (.quoted, row) else stepPlain row c

-- A character that does not end the row.
def step (mode : Mode) (row : OpenRow) (c : Char) : Mode × OpenRow :=
  match mode with
  | .rowStart => if isBreak c then (.rowStart, row) else stepFront row c
  | .fieldStart => stepFront row c
  | .plain => stepPlain row c
  | .quoted => if c = '"' then (.afterQuote, row) else (.quoted, row.push c)
  | .afterQuote => if c = '"' then (.quoted, row.push c) else stepPlain row c

def rowsFrom : Mode → OpenRow → Cursor → List Char → List Row
  | mode, row, _, [] => if mode = .rowStart then [] else [row.close]
  | mode, row, cursor, c :: rest =>
    let next := cursor.pass c
    if endsRow mode c then row.close :: rowsFrom .rowStart (.opened next) next rest
    else
      let (mode, row) := step mode row c
      rowsFrom mode row next rest

def byteOrderMark : Char := Char.ofNat 0xfeff

-- The rows of a text with commas between the fields. A byte order mark at the
-- start is passed over.
def rows (text : String) : List Row :=
  let (cursor, cs) := match text.toList with
    | [] => (Cursor.start, [])
    | c :: rest => if c = byteOrderMark then (Cursor.start.pass c, rest) else (Cursor.start, c :: rest)
  rowsFrom .rowStart (.opened cursor) cursor cs

-- A row with another number of fields than the first one has. Rows are
-- numbered from zero.
structure Uneven where
  index : Nat
  start : Cursor
  found : Nat
  expected : Nat
  deriving DecidableEq, Repr

def Uneven.message (e : Uneven) : String :=
  s!"CSV error: record {e.index} (line: {e.start.line}, byte: {e.start.byte}): found record with " ++
    s!"{e.found} fields, but the previous record has {e.expected} fields"

def checkRow (expected : Nat) (entry : Row × Nat) : Except Uneven Row :=
  let (row, index) := entry
  if row.fields.length = expected then .ok row
  else .error ⟨index, row.start, row.fields.length, expected⟩

-- The rows after the first one, which holds the headings.
def records (text : String) : List (Except Uneven Row) :=
  match rows text with
  | [] => []
  | heading :: rest => (rest.zipIdx 1).map (checkRow heading.fields.length)

end CandleScript.Table
