import Orchestration.NetworkDelay

namespace Orchestration.CommandLine

inductive Command where
  | trafficMix (file : String)
  | networkDelay (client destinationIp : String) (duration : Nat) (order : NetworkDelay.Order)
  deriving DecidableEq

/-- What holds for all commands. -/
structure Options where
  config : Option String
  plotEntity : Option String
  compact : Bool
  deriving DecidableEq

/-- Why nothing is built: the words make no sense, or they ask for something else. -/
inductive Stop where
  | usage
  | help
  | version
  deriving DecidableEq

/-- What is understood at one level: options with a value and what values they take, options
without, what its words may be, whether it knows its version, and whether a command ends it. -/
structure Level where
  valued : List (String × (String → Bool))
  flags : List String
  words : List (String → Bool) := []
  knowsVersion : Bool := false
  takesCommand : Bool := false

/-- What was given at one level. `rest` starts with the command. -/
structure Given where
  values : List (String × String) := []
  flags : List String := []
  words : List String := []
  rest : List String := []

def anyText (_ : String) : Bool := true

def isPath (text : String) : Bool := !text.isEmpty

def seconds? (text : String) : Option Nat := Text.readNumeral Text.max64 text.toList

/-- The options with values that are understood before and after the command. -/
def commonValued : List (String × (String → Bool)) :=
  [("config", isPath), ("post-processing-entity", anyText)]

def topLevel : Level where
  valued := commonValued
  flags := ["compact"]
  knowsVersion := true
  takesCommand := true

def trafficMixLevel : Level where
  valued := commonValued
  flags := ["compact"]
  words := [isPath]

def networkDelayLevel : Level where
  valued := commonValued ++ [("client", anyText), ("ip-dst", anyText),
    ("duration", fun text => (seconds? text).isSome)]
  flags := ["compact", "sequential"]

/-- Whether a word can be a value or a name: it has no hyphen in front, or is nothing else. -/
def isWord (token : String) : Bool :=
  match token.toList with
  | '-' :: _ :: _ => false
  | _ => true

/-- Gives an option its value, once. -/
def setValue (level : Level) (given : Given) (name value : String) : Except Stop Given :=
  match level.valued.find? fun option => option.1 = name with
  | some (_, accepts) =>
    if given.values.any (fun found => found.1 = name) || !accepts value then throw .usage
    else return { given with values := given.values ++ [(name, value)] }
  | none => throw .usage

/-- Takes an option by its name. The name is returned if the value is still to come. -/
def takeOption (level : Level) (given : Given) (name : String) (value : Option String) :
    Except Stop (Given × Option String) :=
  match value with
  | some value => do
    let given ← setValue level given name value
    return (given, none)
  | none =>
    if level.valued.any fun option => option.1 = name then return (given, some name)
    else if name ∈ level.flags then
      if name ∈ given.flags then throw .usage
      else return ({ given with flags := given.flags ++ [name] }, none)
    else if name = "help" then throw .help
    else if name = "version" ∧ level.knowsVersion then throw .version
    else throw .usage

/-- Takes a word at its place among the words of the level. -/
def takeWord (level : Level) (given : Given) (word : String) : Except Stop Given :=
  match level.words[given.words.length]? with
  | some accepts =>
    if accepts word then return { given with words := given.words ++ [word] } else throw .usage
  | none => throw .usage

/-- The name of a long option, and its value after an equals sign. -/
def splitOption (text : List Char) : String × Option String :=
  match text.span (· ≠ '=') with
  | (name, _ :: value) => (String.ofList name, some (String.ofList value))
  | (name, []) => (String.ofList name, none)

/-- Takes short options. All of them end the reading. -/
def takeShort (level : Level) (letter : Char) : Stop :=
  if letter = 'h' then .help
  else if letter = 'V' ∧ level.knowsVersion then .version
  else .usage

/-- Reads the words of one level. `pending` is an option that waits for its value. -/
def scan (level : Level) (pending : Option String) (given : Given) :
    List String → Except Stop Given
  | [] => if pending.isSome then throw .usage else return given
  | token :: rest =>
    match pending, token.toList with
    | some name, _ =>
      if isWord token then do
        let given ← setValue level given name token
        scan level none given rest
      else throw .usage
    | none, ['-', '-'] =>
      if level.takesCommand then throw .usage
      else rest.foldlM (takeWord level) given
    | none, '-' :: '-' :: text => do
      let (name, value) := splitOption text
      let (given, pending) ← takeOption level given name value
      scan level pending given rest
    | none, '-' :: letter :: _ => throw (takeShort level letter)
    | none, _ =>
      if level.takesCommand then return { given with rest := token :: rest }
      else do
        let given ← takeWord level given token
        scan level none given rest

def Given.value? (given : Given) (name : String) : Option String :=
  (given.values.find? fun found => found.1 = name).map Prod.snd

def Given.required (given : Given) (name : String) : Except Stop String :=
  match given.value? name with
  | some value => return value
  | none => throw .usage

/-- The common options. What is given after the command counts before what is given in front. -/
def options (top inner : Given) : Options where
  config := (inner.value? "config").or (top.value? "config")
  plotEntity :=
    (inner.value? "post-processing-entity").or (top.value? "post-processing-entity")
  compact := "compact" ∈ inner.flags ∨ "compact" ∈ top.flags

def trafficMix (given : Given) : Except Stop Command :=
  match given.words with
  | [file] => return .trafficMix file
  | _ => throw .usage

def defaultDuration : Nat := 60

def networkDelay (given : Given) : Except Stop Command := do
  let client ← given.required "client"
  let destinationIp ← given.required "ip-dst"
  let duration := ((given.value? "duration").bind seconds?).getD defaultDuration
  return .networkDelay client destinationIp duration
    (if "sequential" ∈ given.flags then .sequential else .simultaneous)

def parse (words : List String) : Except Stop (Options × Command) := do
  let top ← scan topLevel none {} words
  match top.rest with
  | "traffic-mix" :: rest => do
    let inner ← scan trafficMixLevel none {} rest
    let command ← trafficMix inner
    return (options top inner, command)
  | "network-delay" :: rest => do
    let inner ← scan networkDelayLevel none {} rest
    let command ← networkDelay inner
    return (options top inner, command)
  | ["help"] | ["help", "help"] | ["help", "traffic-mix"] | ["help", "network-delay"] =>
    throw .help
  | _ => throw .usage

end Orchestration.CommandLine
