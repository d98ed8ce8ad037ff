import CandleScript.Command.Request

namespace CandleScript

-- Why arguments name no command. Asking for help is one of the reasons.
inductive Usage where
  | help
  | nothingGiven
  | unknownCommand
  | unknownArgument
  | missingArgument
  | conflict
  | badValue
  | tooManyValues
  deriving DecidableEq, Repr

namespace Arguments

-- The things that arguments can give. Only the script has no name in front.
inductive Slot where
  | script
  | output
  | noOpt
  | document
  | template
  | data
  | engine
  | config
  | shown
  deriving DecidableEq, Repr

def Slot.long? : Slot → Option String
  | script => none
  | output => some "output"
  | noOpt => some "no-opt"
  | document => some "ir"
  | template => some "template"
  | data => some "data"
  | engine => some "engine"
  | config => some "config"
  | shown => some "show"

def Slot.short? : Slot → Option Char
  | output => some 'o'
  | data => some 'd'
  | engine => some 'e'
  | config => some 'c'
  | _ => none

def Slot.takesValue : Slot → Bool
  | noOpt => false
  | _ => true

-- Paths must not be empty, and an engine has to be one that exists.
def Slot.accepts (slot : Slot) (value : String) : Bool :=
  match slot with
  | template | shown | noOpt => true
  | engine => (Engine.ofName? value).isSome
  | _ => value ≠ ""

inductive Verb where
  | check
  | markers
  | compile
  | run
  | templates
  deriving DecidableEq, Repr

def Verb.all : List Verb := [check, markers, compile, run, templates]

def Verb.name : Verb → String
  | check => "check"
  | markers => "markers"
  | compile => "compile"
  | run => "run"
  | templates => "templates"

def Verb.slots : Verb → List Slot
  | check | markers => [.script]
  | compile => [.script, .output, .noOpt]
  | run => [.script, .document, .template, .data, .engine, .config, .output]
  | templates => [.shown]

def Verb.ofName? (text : String) : Option Verb := all.find? fun verb => verb.name = text

-- What was read so far. A value is accepted only when the next argument shows
-- that it is complete; until then its slot waits.
structure Reading where
  given : List (Slot × String)
  waiting : Option (Slot × Option String)

namespace Reading

def empty : Reading := ⟨[], none⟩

def value? (reading : Reading) (slot : Slot) : Option String :=
  (reading.given.find? fun entry => entry.1 = slot).map Prod.snd

def has (reading : Reading) (slot : Slot) : Bool := (reading.value? slot).isSome

-- Nothing can be given twice.
def give (reading : Reading) (slot : Slot) (value : String) : Except Usage Reading :=
  if reading.has slot then .error .conflict
  else if slot.accepts value then .ok ⟨reading.given ++ [(slot, value)], none⟩
  else .error .badValue

def settle (reading : Reading) : Except Usage Reading :=
  match reading.waiting with
  | none => .ok reading
  | some (_, none) => .error .badValue
  | some (slot, some value) => reading.give slot value

def await (reading : Reading) (slot : Slot) (value : Option String) : Except Usage Reading := do
  return { ← reading.settle with waiting := some (slot, value) }

-- Help ends the reading at once, yet a value that still waits is judged first.
def help (reading : Reading) : Except Usage Reading := do
  let _ ← reading.settle
  .error .help

end Reading

-- A name, and the value after the first equals sign if there is one.
def splitValue (cs : List Char) : String × Option String :=
  match cs.span fun c => c ≠ '=' with
  | (name, []) => (String.ofList name, none)
  | (name, _ :: value) => (String.ofList name, some (String.ofList value))

-- A value may follow a slot directly or as the next argument.
def giveOrAwait (reading : Reading) (slot : Slot) (attached : Option String) :
    Except Usage Reading := do
  match attached with
  | some value => (← reading.settle).give slot value
  | none => reading.await slot none

def readFlag (slot : Slot) (reading : Reading) (attached : Option String) : Except Usage Reading := do
  match attached with
  | some _ => .error .tooManyValues
  | none => (← reading.settle).give slot ""

-- An argument that starts with two dashes, without them.
def readLong (verb : Verb) (reading : Reading) (cs : List Char) : Except Usage Reading :=
  let (name, attached) := splitValue cs
  match verb.slots.find? fun slot => slot.long? = some name with
  | some slot =>
    if slot.takesValue then giveOrAwait reading slot attached else readFlag slot reading attached
  | none =>
    if name = "help" then
      match attached with
      | some _ => .error .tooManyValues
      | none => reading.help
    else .error .unknownArgument

-- What follows the letter of a slot in the same argument is its value.
def attachedValue : List Char → Option String
  | [] => none
  | '=' :: value => some (String.ofList value)
  | value => some (String.ofList value)

-- An argument that starts with one dash, without it.
def readShort (verb : Verb) (reading : Reading) : List Char → Except Usage Reading
  | [] => .error .unknownArgument
  | c :: rest =>
    match verb.slots.find? fun slot => slot.short? = some c with
    | some slot => giveOrAwait reading slot (attachedValue rest)
    | none => if c = 'h' then reading.help else .error .unknownArgument

-- An argument without a name gives the script, if the command has one.
def readBare (verb : Verb) (reading : Reading) (arg : String) : Except Usage Reading :=
  let taken := reading.has .script || reading.waiting.any fun entry => entry.1 = .script
  if verb.slots.contains .script && !taken then reading.await .script (some arg)
  else .error .unknownArgument

-- An argument that is no name belongs to a slot that waits for its value.
def readWord (verb : Verb) (reading : Reading) (arg : String) : Except Usage Reading :=
  match reading.waiting with
  | some (slot, none) => .ok { reading with waiting := some (slot, some arg) }
  | _ => readBare verb reading arg

def readArgument (verb : Verb) (reading : Reading) (arg : String) : Except Usage Reading :=
  match arg.toList with
  | '-' :: '-' :: name => readLong verb reading name
  | '-' :: c :: letters => readShort verb reading (c :: letters)
  | _ => readWord verb reading arg

-- After two dashes that stand alone no argument is a name.
def readAll (verb : Verb) (reading : Reading) : List String → Except Usage Reading
  | [] => reading.settle
  | arg :: rest =>
    if arg = "--" then do (← rest.foldlM (readBare verb) reading).settle
    else do readAll verb (← readArgument verb reading arg) rest

def required (reading : Reading) (slot : Slot) : Except Usage String :=
  match reading.value? slot with
  | some value => .ok value
  | none => .error .missingArgument

-- The program of a run is given in exactly one way.
def programOf (reading : Reading) : Except Usage ProgramSource :=
  match reading.value? .script, reading.value? .document, reading.value? .template with
  | some path, none, none => .ok (.script path)
  | none, some path, none => .ok (.document path)
  | none, none, some id => .ok (.template id)
  | none, none, none => .error .missingArgument
  | _, _, _ => .error .conflict

def engineOf (reading : Reading) : Engine :=
  ((reading.value? .engine).bind Engine.ofName?).getD .visual

def commandOf (verb : Verb) (reading : Reading) : Except Usage Command :=
  match verb with
  | .check => return .check (← required reading .script)
  | .markers => return .markers (← required reading .script)
  | .compile =>
    return .compile (← required reading .script) (reading.value? .output) (!reading.has .noOpt)
  | .run => do
    let program ← programOf reading
    let data ← required reading .data
    return .run ⟨program, data, engineOf reading, reading.value? .config, reading.value? .output⟩
  | .templates => return .templates (reading.value? .shown)

def readVerb (verb : Verb) (args : List String) : Except Usage Command := do
  commandOf verb (← readAll verb .empty args)

def isCommand (word : String) : Bool := word = "help" || (Verb.ofName? word).isSome

-- Help may be asked about one command.
def readHelp : List String → Usage
  | [] => .help
  | word :: rest => if isCommand word && rest = [] then .help else .unknownCommand

-- The first argument when it is not the name of a command.
def refuseFirst (arg : String) : Usage :=
  match arg.toList with
  | '-' :: '-' :: name =>
    match splitValue name with
    | ("help", none) => .help
    | ("help", some _) => .tooManyValues
    | _ => .unknownArgument
  | '-' :: 'h' :: _ => .help
  | '-' :: _ :: _ => .unknownArgument
  | _ => .unknownCommand

-- Reads the arguments of the program.
def read : List String → Except Usage Command
  | [] => .error .nothingGiven
  | arg :: rest =>
    match Verb.ofName? arg with
    | some verb => readVerb verb rest
    | none =>
      if arg = "help" then .error (readHelp rest)
      else if arg = "--" then
        match rest with
        | [] => .error .nothingGiven
        | word :: _ => .error (if isCommand word then .unknownArgument else .unknownCommand)
      else .error (refuseFirst arg)

end Arguments

end CandleScript
