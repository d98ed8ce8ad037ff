import CandleScript.Candle.Load
import CandleScript.Diagnostic.Basic
import CandleScript.Ir.Read
import CandleScript.Run.Error
import CandleScript.Settings.Validate

namespace CandleScript

-- Why a file cannot be read or written.
inductive FileFault where
  | missing
  | directory
  | notDirectory
  | notText
  | other (text : String)
  deriving DecidableEq, Repr

def FileFault.message : FileFault → String
  | missing => "No such file or directory (os error 2)"
  | directory => "Is a directory (os error 21)"
  | notDirectory => "Not a directory (os error 20)"
  | notText => "stream did not contain valid UTF-8"
  | other text => text

-- Why there is nothing to run or nothing to run it on.
inductive DataFault where
  | candles (e : Candle.LoadError)
  | unreadable (path : String) (fault : FileFault)
  | documentVersion (found : Nat)
  -- the known ones are listed if there are any
  | unknownTemplate (id : String) (known : List String)
  deriving DecidableEq, Repr

def DataFault.message : DataFault → String
  | candles e => e.message
  | unreadable path fault => s!"failed to read {path}: {fault.message}"
  | documentVersion found => s!"unsupported IR version {found} (expected {Ir.documentVersion})"
  | unknownTemplate id [] => s!"unknown template '{id}'"
  | unknownTemplate id known =>
    let names := ", ".intercalate known
    s!"unknown template '{id}' (available: {names})"

-- Whatever can keep a command from its result.
inductive Failure where
  | lexical (e : LexError)
  | parsing (e : ParseError)
  | semantic (found : Diagnostics)
  | runtime (e : RuntimeError)
  | settingsText (path : String) (reason : String)
  | settingsValue (e : Settings.Invalid)
  | data (fault : DataFault)
  | document (fault : Json.Fault)
  | file (fault : FileFault)
  deriving DecidableEq

def Json.Fault.message : Json.Fault → String
  | malformed => "malformed document"
  | mismatch => "document of another shape than expected"
  | truncated => "document ends too early"

namespace Failure

def message : Failure → String
  | lexical e => e.text
  | parsing e => e.text
  | semantic found => s!"semantic analysis failed with {found.errors.length} error(s)"
  | runtime e => s!"runtime error [{e.code.text}]: {e.message}"
  | settingsText path reason => s!"config parse error in {path}: {reason}"
  | settingsValue e => e.message
  | data fault => s!"data error: {fault.message}"
  | document fault => fault.message
  | file fault => fault.message

-- The exit status of a process that ends this way. Runs that were stopped by
-- a limit are told apart from those that failed on their own.
def exitStatus : Failure → Nat
  | file _ => 1
  | settingsText _ _ | settingsValue _ => 2
  | data _ | document _ => 3
  | lexical _ | parsing _ | semantic _ => 4
  | runtime e => if e.isSandboxViolation then 6 else 5

def ofReadError : Ir.ReadError → Failure
  | .fault fault => .document fault
  | .version found => .data (.documentVersion found)

end Failure

end CandleScript
