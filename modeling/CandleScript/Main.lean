import CandleScript.Command.Arguments
import CandleScript.Command.Perform

namespace CandleScript

def usageText : String :=
  "Indicator scripts for candle data\n\n" ++
  "Usage:\n" ++
  "  check SCRIPT                           report what is wrong with a script\n" ++
  "  markers SCRIPT                         the same as editor markers\n" ++
  "  compile SCRIPT [-o FILE] [--no-opt]    compile a script to a document\n" ++
  "  run SCRIPT | --ir FILE | --template ID\n" ++
  "      -d FILE [-e visual|strategy] [-c FILE] [-o FILE]\n" ++
  "                                         run a program on candle data\n" ++
  "  templates [--show ID]                  list the templates or print one\n"

def Usage.message : Usage → String
  | help | nothingGiven => ""
  | unknownCommand => "error: there is no such command\n\n"
  | unknownArgument => "error: there is no such argument\n\n"
  | missingArgument => "error: an argument is missing\n\n"
  | conflict => "error: arguments exclude each other\n\n"
  | badValue => "error: an argument has no value or a wrong one\n\n"
  | tooManyValues => "error: an argument takes no value\n\n"

-- The system's number for a directory where a file is wanted, in both signs.
def isDirectoryCode (code : UInt32) : Bool := code == 21 || code == 0 - 21

def FileFault.ofError (e : IO.Error) : FileFault :=
  match e with
  | .noFileOrDirectory _ _ _ => .missing
  | .inappropriateType _ code _ => if isDirectoryCode code then .directory else .notDirectory
  | e => .other (toString e)

def readInput (path : String) : IO (Except FileFault String) := do
  try
    let bytes ← IO.FS.readBinFile path
    match String.fromUTF8? bytes with
    | some text => return .ok text
    | none => return .error .notText
  catch e => return .error (.ofError e)

def readInputs (command : Command) : IO Command.Files := do
  let texts ← command.inputs.mapM fun path => return (path, ← readInput path)
  return fun path =>
    match texts.find? fun entry => entry.1 = path with
    | some (_, text) => text
    | none => .error .missing

-- Answers every look at the clock with the time of the system.
def Timed.inRealTime {α : Type} : Timed α → IO α
  | done result => return result
  | reading resume => do inRealTime (resume (← IO.monoNanosNow))

def saveOutput : Option (String × String) → IO (Except FileFault Unit)
  | none => return .ok ()
  | some (path, text) => do
    try
      IO.FS.writeFile path text
      return .ok ()
    catch e => return .error (.ofError e)

def runCommand (command : Command) : IO UInt32 := do
  let plan ← (Command.perform (← readInputs command) command).inRealTime
  let report := plan.conclude (← saveOutput plan.save)
  IO.print report.out
  IO.eprint report.err
  return report.status.toUInt32

def runArguments (args : List String) : IO UInt32 := do
  match Arguments.read args with
  | .ok command => runCommand command
  | .error .help => do
    IO.print usageText
    return 0
  | .error usage => do
    IO.eprint (usage.message ++ usageText)
    return 2

end CandleScript

def main (args : List String) : IO UInt32 := CandleScript.runArguments args
