import CandleScript.Diagnostic.Code
import CandleScript.Json.Write
import CandleScript.Script.SourceError

namespace CandleScript

namespace Diagnostic

inductive Severity where
  | error
  | warning
  | info
  deriving DecidableEq, Repr

def Severity.text : Severity → String
  | .error => "error"
  | .warning => "warning"
  | .info => "info"

-- The number that editors give to a severity.
def Severity.markerLevel : Severity → Nat
  | .error => 8
  | .warning => 4
  | .info => 2

-- Another place that helps to understand a finding.
structure Related where
  span : Span
  message : String
  deriving DecidableEq, Repr

end Diagnostic

-- A finding about a place of a script.
structure Diagnostic where
  code : Diagnostic.Code
  span : Span
  severity : Diagnostic.Severity
  message : String
  hint : Option String
  suggestion : Option String
  related : List Diagnostic.Related
  deriving DecidableEq, Repr

abbrev Diagnostics := List Diagnostic

namespace Diagnostic

-- A bare finding is an error without a text.
def bare (code : Code) (span : Span) : Diagnostic := ⟨code, span, .error, "", none, none, []⟩

def isError (d : Diagnostic) : Bool := d.severity == .error

def isWarning (d : Diagnostic) : Bool := d.severity == .warning

-- Several lines for a console: the message, its place, and one line each for
-- the hint, the suggestion and the related places.
def render (d : Diagnostic) : String :=
  let hint := match d.hint with
    | some text => s!"\n  = hint: {text}"
    | none => ""
  let suggestion := match d.suggestion with
    | some text => s!"\n  = suggestion: {text}"
    | none => ""
  let notes := d.related.map fun r => s!"\n  = note ({r.span.start.text}): {r.message}"
  s!"{d.severity.text}[{d.code.text}]: {d.message}\n  --> {d.span.start.text}" ++ hint ++
    suggestion ++ String.join notes

-- What an editor shows in its margin.
def marker (d : Diagnostic) : Json :=
  .object [
    ("severity", .count d.severity.markerLevel),
    ("startLineNumber", .count d.span.start.line),
    ("startColumn", .count d.span.start.column),
    ("endLineNumber", .count d.span.stop.line),
    ("endColumn", .count d.span.stop.column),
    ("message", .text s!"[{d.code.text}] {d.message}"),
    ("code", .text d.code.text)]

def ofLexError (e : LexError) : Diagnostic :=
  { bare e.fault.code (.spanning e.position 1) with message := e.fault.message }

def ofParseError (e : ParseError) : Diagnostic :=
  { bare e.fault.code (.spanning e.position 1) with message := e.fault.message }

end Diagnostic

namespace Diagnostics

def errors (ds : Diagnostics) : Diagnostics := ds.filter Diagnostic.isError

def warnings (ds : Diagnostics) : Diagnostics := ds.filter Diagnostic.isWarning

def hasErrors (ds : Diagnostics) : Bool := ds.any Diagnostic.isError

theorem hasErrors_append (a b : Diagnostics) :
    (a ++ b).hasErrors = (a.hasErrors || b.hasErrors) :=
  List.any_append

-- The findings one after the other with an empty line between them.
def render (ds : Diagnostics) : String := "\n\n".intercalate (ds.map Diagnostic.render)

def markers (ds : Diagnostics) : Json := .list (ds.map Diagnostic.marker)

end Diagnostics

end CandleScript
