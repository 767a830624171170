import GridStream.Config.Check
import GridStream.ModelRun

/-!
# Configurations

A configuration holds settings that have passed all checks. Settings are looked up by paths of keys
with points between them, and a model run can be made from them.
-/

namespace GridStream

/-- Settings that have passed all checks. -/
structure Configuration where
  settings : Mapping
  checked : Config.check settings = .ok ()

namespace Configuration

def ofSettings? (settings : Mapping) : Attempt Configuration :=
  match h : Config.check settings with
  | .ok () => .ok ⟨settings, h⟩
  | .error f => .error f

/-- The layers of a configuration above the defaults. -/
structure Layers where
  /-- What a file holds, if there is a file. -/
  file : Option Value := none
  environment : List (String × String) := []
  /-- The overrides of the command line. What counts as false overrides nothing. -/
  overrides : Value := .null

/-- The settings that layers give together. -/
def Layers.merged (layers : Layers) : Attempt Mapping := do
  let settings ← match layers.file with
    | some v => Config.mergeLayer Config.defaults v
    | none => .ok Config.defaults
  let settings ← Config.merge settings (Config.environmentLayer layers.environment)
  if layers.overrides.isTrue then Config.mergeLayer settings layers.overrides else .ok settings

/-- The configuration that layers give together. -/
def ofLayers? (layers : Layers) : Attempt Configuration := do ofSettings? (← layers.merged)

/-- Follows keys down from a value. -/
def follow? : Value → List String → Option Value
  | v, [] => some v
  | .map entries, key :: keys => (Mapping.field? entries key).bind (follow? · keys)
  | _, _ :: _ => none

/-- The setting at a path. -/
def get? (c : Configuration) (path : String) : Option Value :=
  follow? (.map c.settings) (Text.splitAt '.' path)

/-- The setting at a path, which must be there and not be null. -/
def require (c : Configuration) (path : String) : Attempt Value :=
  match (c.get? path).getD .null with
  | .null =>
    .error (.configuration s!"Required configuration value missing: {path}"
      [("path", .text path)])
  | v => .ok v

/-- The species groups in effect. -/
def groups (c : Configuration) : Attempt SpeciesGroups := Config.groupsOf c.settings

/-- The names of the species groups that the settings override. -/
def overriddenNames (c : Configuration) : List Value :=
  match Config.givenGroups c.settings with
  | .map entries => entries.map (·.1)
  | _ => []

/-- The section about input. -/
def input (c : Configuration) : Value := (c.settings.get? Config.inputKey).getD .null

/-- The section about processing. -/
def processing (c : Configuration) : Value := (c.settings.get? Config.processingKey).getD .null

/-- A setting of a section. -/
def fieldOf (v : Value) (field : String) : Option Value := v.map?.bind (Mapping.field? · field)

/-- The pattern for dates in paths. -/
def datePattern (c : Configuration) : Value :=
  (fieldOf c.input "date_format").getD (.text "%Y-%m-%d")

/-- Whether progress is logged where no sink is given. -/
def reportsProgress (c : Configuration) : Bool :=
  ((c.get? "processing.report_progress").getD (.bool true)).isTrue

/-- The sink for progress messages where none is given. -/
def defaultSink (c : Configuration) : Option Sink :=
  if c.reportsProgress then some (.log .info .debug []) else none

/-- The settings of the model run that is configured. Template and dates must be set. -/
def runSettings (c : Configuration) : Attempt RunSettings := do
  let template ← c.require "input.path_template"
  let start ← c.require "input.start_date"
  let stop ← c.require "input.end_date"
  .ok {
    template, start, stop
    record := (fieldOf c.input "record_interval").getD (.text "1h")
    file := (fieldOf c.input "file_interval").getD (.text "24h")
    groups := ← c.groups }

/-- The model run that is configured. -/
def run (c : Configuration) : Attempt ModelRun := do ModelRun.make? (← c.runSettings)

end Configuration

end GridStream
