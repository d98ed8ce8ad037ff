import CandleScript.Text.Lowercase

namespace CandleScript

-- Vocabularies that scripts must not use as names: there are no loops,
-- conditionals, user functions or access to the host.
inductive Forbidden where
  | loop
  | conditional
  | functionDefinition
  | async
  | objectOriented
  | module
  | dangerous
  | hostGlobal
  deriving DecidableEq, Repr

namespace Forbidden

def all : List Forbidden :=
  [loop, conditional, functionDefinition, async, objectOriented, module, dangerous, hostGlobal]

def words : Forbidden → List String
  | loop => ["for", "while", "do", "loop", "until", "foreach", "repeat", "break", "continue"]
  | conditional => ["if", "else", "elif", "elseif", "switch", "case", "match", "when"]
  | functionDefinition => ["function", "func", "fn", "def", "lambda", "return", "yield"]
  | async => ["async", "await", "promise", "settimeout", "setinterval", "thread", "spawn"]
  | objectOriented =>
    ["class", "new", "this", "self", "super", "extends", "prototype", "constructor", "interface"]
  | module => ["import", "export", "require", "module", "include", "package"]
  | dangerous =>
    ["eval", "exec", "system", "fetch", "xmlhttprequest", "websocket", "shell", "syscall", "delete"]
  | hostGlobal =>
    ["window", "document", "global", "globalthis", "console", "localstorage", "sessionstorage",
      "navigator", "process"]

def message (category : Forbidden) (word : String) : String :=
  match category with
  | loop => s!"'{word}' is a loop keyword; Kuri has no loops"
  | conditional => s!"'{word}' is a conditional keyword; Kuri v1 has no conditionals"
  | functionDefinition => s!"'{word}' defines functions; Kuri has no user-defined functions"
  | async => s!"'{word}' is an asynchronous construct; scripts run synchronously"
  | objectOriented => s!"'{word}' is an object-oriented keyword; Kuri has no objects"
  | module => s!"'{word}' loads modules; scripts cannot import code"
  | dangerous => s!"'{word}' is not allowed in a sandboxed script"
  | hostGlobal => s!"'{word}' refers to the host environment, which scripts cannot access"

def hint : Forbidden → String
  | loop => "indicator functions already operate on the whole series; no iteration is needed"
  | conditional => "use comparisons with 'and'/'or' to build a boolean series instead"
  | functionDefinition => "assign the expression to a variable and reuse the variable"
  | async => "remove the construct; every statement runs in order"
  | objectOriented => "use plain variables holding series or numbers"
  | module => "only the built-in functions are available"
  | dangerous => "only the built-in functions are available"
  | hostGlobal => "scripts can only read open, high, low, close and volume"

-- The first segment of a dotted name, in lower case.
def head (name : String) : String :=
  Text.lowercase (String.ofList (name.toList.takeWhile fun c => c ≠ '.'))

-- The vocabulary that a name belongs to, in any letter case. Only the first
-- segment counts, so that members of a forbidden object are forbidden too.
def classify? (name : String) : Option Forbidden :=
  all.find? fun category => category.words.contains (head name)

end Forbidden

end CandleScript
