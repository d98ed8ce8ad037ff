import CandleScript.Command.Request
import CandleScript.Pipeline
import CandleScript.Template

namespace CandleScript

-- What a command prints and the exit status of the process.
structure Report where
  out : String
  err : String
  status : Nat
  deriving DecidableEq, Repr

-- Failures are reported after whatever was printed before.
def Report.fail (report : Report) (failure : Failure) : Report :=
  ⟨report.out, report.err ++ s!"error: {failure.message}\n", failure.exitStatus⟩

-- A report, and a text that still has to be written to a file.
structure Plan where
  report : Report
  save : Option (String × String)

namespace Plan

-- The whole report, once the attempt to write the file is known.
def conclude (plan : Plan) (saved : Except FileFault Unit) : Report :=
  match plan.save with
  | none => plan.report
  | some (path, _) =>
    match saved with
    | .ok () => { plan.report with err := plan.report.err ++ s!"Wrote {path}\n" }
    | .error fault => plan.report.fail (.file fault)

def print (out : String) : Plan := ⟨⟨out, "", 0⟩, none⟩

-- A document goes to the file that is named or is printed.
def emit (err document : String) (output : Option String) : Plan :=
  match output with
  | some path => ⟨⟨"", err, 0⟩, some (path, document)⟩
  | none => ⟨⟨document ++ "\n", err, 0⟩, none⟩

end Plan

-- A failure and what was said about it beforehand.
structure Stop where
  details : String
  failure : Failure

def Stop.of (failure : Failure) : Stop := ⟨"", failure⟩

def Stop.plan (stop : Stop) : Plan := ⟨Report.fail ⟨"", stop.details, 0⟩ stop.failure, none⟩

abbrev Attempt (α : Type) := Except Stop α

def attempt {α : Type} : Except Failure α → Attempt α
  | .ok value => .ok value
  | .error failure => .error (.of failure)

namespace Command

-- The files as a command sees them: the text under a path.
abbrev Files := String → Except FileFault String

def readFile (files : Files) (path : String) : Except Failure String :=
  match files path with
  | .ok text => .ok text
  | .error fault => .error (.file fault)

-- Faults of a script are shown with their source.
def details (source : String) : Failure → String
  | .lexical e => e.inContext source ++ "\n"
  | .parsing e => e.inContext source ++ "\n"
  | .semantic found => found.render ++ "\n"
  | _ => ""

def compileShown (optimize : Bool) (source : String) : Attempt Compilation :=
  match compileSource optimize source with
  | .ok compilation => .ok compilation
  | .error failure => .error ⟨details source failure, failure⟩

def summary (script : String) (found : Diagnostics) : String :=
  s!"{script}: {found.errors.length} error(s), {found.warnings.length} warning(s)\n"

-- Findings that are errors give the status of a script that is refused.
def checkReport (script : String) (found : Diagnostics) : Report :=
  if found.isEmpty then ⟨s!"{script}: no problems found\n", "", 0⟩
  else if found.hasErrors then
    ⟨found.render ++ "\n" ++ summary script found, "", (Failure.semantic found).exitStatus⟩
  else ⟨found.render ++ "\n", "", 0⟩

def checkScript (files : Files) (script : String) : Attempt Plan := do
  let source ← attempt (readFile files script)
  return ⟨checkReport script (CandleScript.check source), none⟩

def showMarkers (files : Files) (script : String) : Attempt Plan := do
  let source ← attempt (readFile files script)
  return .print ((CandleScript.check source).markers.pretty ++ "\n")

def compileScript (files : Files) (script : String) (output : Option String) (optimize : Bool) :
    Attempt Plan := do
  let source ← attempt (readFile files script)
  let compilation ← compileShown optimize source
  let warnings := compilation.diagnostics.warnings.map fun d => d.render ++ "\n"
  return .emit (String.join warnings) compilation.program.prettyDocument output

-- A settings file that cannot be read counts as one with a faulty text.
def readSettings (files : Files) (path : String) : Except Failure Sections :=
  let fail (reason : String) : Failure := .settingsText path s!"couldn't read {path}: {reason}"
  match files path with
  | .error fault => .error (fail fault.message)
  | .ok text =>
    match Sections.read text with
    | .error e => .error (fail e.message)
    | .ok sections => .ok sections

def valid {α : Type} : Except Settings.Invalid α → Except Failure α
  | .ok value => .ok value
  | .error e => .error (.settingsValue e)

-- Limits and risk of a run. The log level is not looked at here.
def runSettings (files : Files) : Option String → Except Failure (Limits × Risk)
  | none => .ok (.standard, .standard)
  | some path => do
    let sections ← readSettings files path
    return (← valid (Settings.limits sections.value?), ← valid (Settings.risk sections.value?))

-- The log level that the settings of a run ask for. Faulty settings ask for
-- none.
def logLevel? (files : Files) : Command → Option Settings.LogLevel
  | .run request =>
    match request.config.map (readSettings files) with
    | some (.ok sections) =>
      match Settings.logLevel sections.value? with
      | .ok level => level
      | .error _ => none
    | _ => none
  | _ => none

def loadProgram (files : Files) : ProgramSource → Attempt Ir.Program
  | .script path => do
    let source ← attempt (readFile files path)
    let compilation ← compileShown true source
    return compilation.program
  | .document path => do
    let text ← attempt (readFile files path)
    match Ir.Program.ofDocument text with
    | .ok program => .ok program
    | .error e => .error (.of (.ofReadError e))
  | .template id =>
    match Template.find? id with
    | some template => do
      let compilation ← compileShown true template.source
      return compilation.program
    | none => .error (.of (.data (.unknownTemplate id (Template.all.map Template.id))))

def loadCandles (files : Files) (path : String) : Except Failure (List Bar) :=
  match files path with
  | .error fault => .error (.data (.unreadable path fault))
  | .ok text =>
    match Candle.load text with
    | .ok bars => .ok bars
    | .error e => .error (.data (.candles e))

-- The report of a run: its bindings, and what its engine has kept.
def runReport (engine : Engine) (candles operations : Nat) (context : Context)
    (kept : List (String × Json)) : String :=
  Json.pretty (.object ([("engine", .text engine.name), ("candles", .count candles),
    ("operations", .count operations), ("bindings", context.toJson)] ++ kept))

def finish {σ : Type} (request : RunRequest) (candles : Nat)
    (kept : Outcome σ → List (String × Json)) (outcome : Outcome σ) : Plan :=
  match outcome.result with
  | .error e => (Stop.of (.runtime e)).plan
  | .ok operations =>
    let report := runReport request.engine candles operations outcome.context (kept outcome)
    .emit "" report request.output

def keptPlots (outcome : Outcome (List Plot)) : List (String × Json) :=
  [("plots", .list (outcome.kept.map Plot.toJson))]

-- Signals are taken from the close as it stands after the run.
def keptEvents (risk : Risk) (outcome : Outcome (List Event)) : List (String × Json) :=
  let close := (outcome.context.series? "close").getD []
  [("events", .list (outcome.kept.map Event.toJson)),
    ("signals", .list ((latestSignals outcome.kept close risk).map Signal.toJson))]

-- Settings are read first, then the program, and the candles last.
def runProgram (files : Files) (request : RunRequest) : Attempt (Timed Plan) := do
  let (limits, risk) ← attempt (runSettings files request.config)
  let program ← loadProgram files request.program
  let bars ← attempt (loadCandles files request.data)
  let context := Context.ofBars bars
  match request.engine with
  | .visual => return (runVisual limits program context).map (finish request bars.length keptPlots)
  | .strategy =>
    return (runStrategy limits program context).map (finish request bars.length (keptEvents risk))

-- A text on the left of a column.
def column (width : Nat) (text : String) : String :=
  text ++ String.ofList (List.replicate (width - text.length) ' ')

def templateLine (t : Template) : String :=
  s!"{column 20 t.id} {column 20 t.name} {t.description}\n"

def showTemplates : Option String → Attempt Plan
  | none => return .print (String.join (Template.all.map templateLine))
  | some id =>
    match Template.find? id with
    | some template => return .print template.source
    | none => .error (.of (.data (.unknownTemplate id [])))

def settled (x : Attempt Plan) : Timed Plan :=
  match x with
  | .ok plan => .done plan
  | .error stop => .done stop.plan

-- Carries a command out. Only runs look at the clock.
def perform (files : Files) : Command → Timed Plan
  | .check script => settled (checkScript files script)
  | .markers script => settled (showMarkers files script)
  | .compile script output optimize => settled (compileScript files script output optimize)
  | .run request =>
    match runProgram files request with
    | .ok timed => timed
    | .error stop => .done stop.plan
  | .templates shown => settled (showTemplates shown)

end Command

end CandleScript
