import GridStream.Failure
import GridStream.Text.Character

/-!
# Layers of a configuration

A configuration is put together from layers: the defaults, a file, the environment, and the
overrides of the command line. A higher layer is laid over what lies below it key by key. Mappings
are merged at every depth, with one exception: the species groups of a layer replace whole groups,
they are never mixed member by member.
-/

namespace GridStream.Config

/-- The key of the species groups. -/
def groupsKey : Value := .text "species_groups"

/-- The keys of the sections about input and processing. -/
def inputKey : Value := .text "input"

def processingKey : Value := .text "processing"

/-- The lowest layer. -/
def defaults : Mapping :=
  [(inputKey, .map
      [(.text "path_template", .null), (.text "start_date", .null), (.text "end_date", .null),
        (.text "record_interval", .text "1h"), (.text "file_interval", .text "24h"),
        (.text "date_format", .text "%Y-%m-%d")]),
    (processingKey, .map
      [(.text "log_level", .text "INFO"), (.text "log_file", .null),
        (.text "report_progress", .bool true)]),
    (groupsKey, .map [])]

/-- The names of the environment that set something, each with the section and key that it
sets. -/
def environmentNames : List (String × Value × String) :=
  [("WRFCMAQ_PATH_TEMPLATE", inputKey, "path_template"),
    ("WRFCMAQ_START_DATE", inputKey, "start_date"),
    ("WRFCMAQ_END_DATE", inputKey, "end_date"),
    ("WRFCMAQ_RECORD_INTERVAL", inputKey, "record_interval"),
    ("WRFCMAQ_FILE_INTERVAL", inputKey, "file_interval"),
    ("WRFCMAQ_LOG_LEVEL", processingKey, "log_level"),
    ("WRFCMAQ_LOG_FILE", processingKey, "log_file")]

/-- The value that a text of the environment stands for: a truth value if it spells one in any
case, else the text. -/
def environmentValue (s : String) : Value :=
  if Text.lower s = "true" then .bool true
  else if Text.lower s = "false" then .bool false
  else .text s

/-- The entries that the environment sets in one section. -/
def environmentSection (environment : List (String × String)) (key : Value) : Mapping :=
  environmentNames.filterMap fun (name, itsSection, field) =>
    if itsSection.same key then
      (environment.find? (·.1 == name)).map fun (_, s) => (.text field, environmentValue s)
    else none

/-- The layer of the environment. A section of which nothing is set is left out. -/
def environmentLayer (environment : List (String × String)) : Mapping :=
  [inputKey, processingKey].filterMap fun key =>
    match environmentSection environment key with
    | [] => none
    | entries => some (key, .map entries)

/-- The failure of a value that should be a mapping. -/
def noMapping (v : Value) : Failure := .noOperation s!"{v.inner} is no mapping"

mutual

def layOver (base : Mapping) (key : Value) : Value → Attempt Mapping
  | .map entries =>
    match base.get? key with
    | some (.map below) =>
      if key.same groupsKey then .ok (base.put key (.map (Mapping.update below entries)))
      else do .ok (base.put key (.map (← merge below entries)))
    | some below =>
      if key.same groupsKey then .error (noMapping below)
      else .ok (base.put key (.map entries))
    | none => .ok (base.put key (.map entries))
  | value => .ok (base.put key value)

/-- Lays the entries of a mapping over another. -/
def merge (base : Mapping) : List (Value × Value) → Attempt Mapping
  | [] => .ok base
  | (key, value) :: rest => do merge (← layOver base key value) rest

end

/-- Lays a whole layer over what lies below it. It must be a mapping. -/
def mergeLayer (base : Mapping) : Value → Attempt Mapping
  | .map entries => merge base entries
  | v => .error (noMapping v)

end GridStream.Config
