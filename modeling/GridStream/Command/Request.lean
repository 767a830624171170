import GridStream.Command.Options
import GridStream.Config.File

/-!
# Requests and outcomes

The command line asks for one of two things: a list of all quantities, or a summary of one quantity
over the window of a model run. A command reads the files and the environment that it finds, prints
lines, and ends with an exit code. A failure that no part of a command takes care of ends it instead
of the code.
-/

namespace GridStream.Command

/-! ## Requests -/

/-- What a summary is asked of. Options that were not given are null. -/
structure SummaryRequest where
  quantity : String
  config : Value
  template : Value
  start : Value
  stop : Value
  record : Value
  file : Value
  maxRecords : Value
  logLevel : Value
  logFile : Value

/-- What the command line asks for. -/
inductive Request
  /-- Nothing: no command is named. -/
  | nothing
  | listQuantities (config : Value)
  | summarize (r : SummaryRequest)

/-- The options of the list of quantities. -/
def listOptions : Grammar := helpOptions ++ [("--config", .text)]

def summaryOptions : Grammar :=
  helpOptions ++
    [("--config", .text), ("--path-template", .text), ("--start", .text), ("--end", .text),
      ("--record-interval", .text), ("--file-interval", .text), ("--max-records", .integer),
      ("--log-level", .text), ("--log-file", .text)]

/-- The request for a summary that arguments make. -/
def summaryRequest (r : Reading) : SummaryRequest where
  quantity := r.word.getD ""
  config := r.option "--config"
  template := r.option "--path-template"
  start := r.option "--start"
  stop := r.option "--end"
  record := r.option "--record-interval"
  file := r.option "--file-interval"
  maxRecords := r.option "--max-records"
  logLevel := r.option "--log-level"
  logFile := r.option "--log-file"

/-- The request that a named command with its arguments makes. Surplus arguments in front of the
command spoil it as well. -/
def commandRequest (surplus : Bool) (name : String) (args : List String) : Parsed Request :=
  let finish (r : Parsed Reading) (request : Reading → Request) : Parsed Request :=
    match r with
    | .help => .help
    | .misuse => .misuse
    | .ok r => if surplus || r.surplus then .misuse else .ok (request r)
  if name = "list-quantities" then
    finish (readArguments listOptions false args) fun r => .listQuantities (r.option "--config")
  else if name = "summarize" then
    finish (readArguments summaryOptions true args) fun r => .summarize (summaryRequest r)
  else .misuse

/-- The request of a command line, read up to its command. All that follows belongs to the
command. -/
def requestFrom : (surplus : Bool) → List Argument → List String → Parsed Request
  | _, .word _ :: _, [] => .misuse
  | surplus, .word _ :: _, name :: args => commandRequest surplus name args
  | _, .stray :: rest, args => requestFrom true rest args.tail
  | _, .separator :: _, _ => .misuse
  | _, .option ⟨_, _, none⟩ :: _, _ => .help
  | _, .option ⟨name, _, some letters⟩ :: _, _ =>
    if !name.startsWith "--" && letters ≠ "" && isHelpCluster helpOptions letters then .help
    else .misuse
  | surplus, [], _ => if surplus then .misuse else .ok .nothing

/-- The request of a command line. -/
def request (args : List String) : Parsed Request :=
  match classifyAll? helpOptions args with
  | none => .misuse
  | some parts => requestFrom false parts args

/-! ## Outcomes -/

/-- What a command finds. -/
structure Surroundings where
  files : FolderTree := {}
  environment : List (String × String) := []
  /-- What documents of YAML stand for. -/
  yaml : Reader := Yaml.read

/-- What a command leaves behind. -/
structure Outcome where
  ending : Except Failure Nat
  printed : List String := []
  complaints : List String := []
  files : FolderTree

/-- The outcome of a command whose configuration cannot be loaded. Only failures of the library's
own kinds are complained about. -/
def Outcome.ofConfigFailure (files : FolderTree) (f : Failure) : Outcome :=
  if f.kind.isForeign then { ending := .error f, files }
  else { ending := .ok 1, complaints := [s!"Configuration error: {f.message}"], files }

/-- The name of the configuration file, empty if there is none. -/
def configName : Value → String
  | .text s => s
  | _ => ""

/-- The configuration with the file that is asked for, and overrides. -/
def Surroundings.load (s : Surroundings) (config overrides : Value) : Attempt Configuration :=
  Configuration.load s.files (configName config) s.environment overrides s.yaml

end GridStream.Command
