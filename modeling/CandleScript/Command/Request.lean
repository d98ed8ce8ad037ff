namespace CandleScript

-- What a run is for.
inductive Engine where
  | visual
  | strategy
  deriving DecidableEq, Repr

namespace Engine

def all : List Engine := [visual, strategy]

def name : Engine → String
  | visual => "visual"
  | strategy => "strategy"

def ofName? (text : String) : Option Engine := all.find? fun engine => engine.name = text

end Engine

-- Where the program of a run comes from.
inductive ProgramSource where
  | script (path : String)
  | document (path : String)
  | template (id : String)
  deriving DecidableEq, Repr

structure RunRequest where
  program : ProgramSource
  data : String
  engine : Engine
  config : Option String
  output : Option String
  deriving DecidableEq, Repr

-- What the program is asked to do. Files are named by their paths.
inductive Command where
  | check (script : String)
  | markers (script : String)
  | compile (script : String) (output : Option String) (optimize : Bool)
  | run (request : RunRequest)
  | templates (shown : Option String)
  deriving DecidableEq, Repr

def ProgramSource.inputs : ProgramSource → List String
  | script path | document path => [path]
  | template _ => []

-- The files that a command reads.
def Command.inputs : Command → List String
  | check script | markers script | compile script _ _ => [script]
  | run request => request.config.toList ++ request.program.inputs ++ [request.data]
  | templates _ => []

end CandleScript
