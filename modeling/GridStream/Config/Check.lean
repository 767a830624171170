import GridStream.Calendar.DateText
import GridStream.Calendar.DurationText
import GridStream.Calendar.Pattern
import GridStream.Catalog
import GridStream.Config.Layer

/-!
# Checks of a configuration

The settings that a configuration ends up with are checked section by section: the input, the
processing and the species groups. The first setting that is wrong decides what is reported.
-/

namespace GridStream.Config

/-- The entries of a section. A section that is no mapping cannot be asked for them. -/
def sectionOf (settings : Mapping) (key : Value) : Attempt Mapping :=
  match settings.get? key with
  | some (.map entries) => .ok entries
  | v => .error (noMapping (v.getD .null))

/-- A setting of a section, null if it is absent. -/
def setting (entries : Mapping) (field : String) : Value := (entries.field? field).getD .null

/-- Checks that the template, if there is one, has the mark of a date. -/
def checkTemplate (template : Value) : Attempt Unit :=
  match template with
  | .null => .ok ()
  | v =>
    if Text.contains dateMark v.toText then .ok ()
    else
      .error (.configuration
        s!"path_template must contain the {dateMark} placeholder: {v.toText}"
        [("path_template", v)])

/-- Checks that a file spans a whole number of records. -/
def checkIntervals (record file : Value) : Attempt Unit := do
  let record ← parseDuration "record_interval" record
  let file ← parseDuration "file_interval" file
  let context : Context :=
    [("record_interval", .text record.text), ("file_interval", .text file.text)]
  if file.micros < record.micros then
    .error (.configuration "file_interval must not be shorter than record_interval" context)
  else if file.micros % record.micros ≠ 0 then
    .error (.configuration "file_interval must be a whole multiple of record_interval" context)
  else .ok ()

/-- The instant that a date names, `none` if it is in a time zone. -/
def dateOf (label : String) (value : Value) : Attempt (Option Instant) :=
  match value with
  | .zoned .. => .ok none
  | value => (parseDate label value).map some

/-- Checks that the window, if both of its ends are set, does not end before it starts. Dates can
only be compared if both of them are in a time zone or none is. -/
def checkDates (start stop : Value) : Attempt Unit :=
  match start, stop with
  | .null, _ | _, .null => .ok ()
  | start, stop => do
    match ← dateOf "end date" stop, ← dateOf "start date" start with
    | some stopTime, some startTime =>
      if stopTime < startTime then
        .error (.configuration
          s!"end_date {stop.toText} is before start_date {start.toText}")
      else .ok ()
    | none, none => .error (.undescribed "a window in a time zone")
    | _, _ => .error (.wrongType "a time in a zone and one without have no order")

/-- Checks the section about input. -/
def checkInput (settings : Mapping) : Attempt Unit := do
  let input ← sectionOf settings inputKey
  checkTemplate (setting input "path_template")
  checkIntervals (setting input "record_interval") (setting input "file_interval")
  checkDates (setting input "start_date") (setting input "end_date")

/-- Checks the section about processing. -/
def checkProcessing (settings : Mapping) : Attempt Unit := do
  let processing ← sectionOf settings processingKey
  let level := (processing.field? "log_level").getD (.text "INFO")
  let levels := Level.all.map Level.name
  if Text.upper level.toText ∉ levels then
    .error (.configuration s!"log_level must be one of: {Value.textList levels}")
  else
    match (processing.field? "report_progress").getD (.bool true) with
    | .bool _ => .ok ()
    | _ => .error (.configuration "Processing parameter 'report_progress' must be boolean")

/-- The species groups of the settings as they were given. What counts as false is none at
all. -/
def givenGroups (settings : Mapping) : Value :=
  let v := (settings.get? groupsKey).getD .null
  if v.isTrue then v else .map []

/-- The names that a value is searched for: keys, items or characters. -/
def searchedNames (v : Value) : Attempt (List Value) :=
  match v.items? with
  | some items => do
    items.forM Value.checkKey
    .ok items
  | none => .error (.wrongType s!"{v.inner} holds no names")

/-- The species groups that a mapping of overrides sets, laid over `groups` one after the other. A
group keeps the units that it has below. -/
def overriddenGroups (groups : SpeciesGroups) : List (Value × Value) → Attempt SpeciesGroups
  | [] => .ok groups
  | (name, members) :: rest => do
    let units := ((groups.get? name).map (·.units)).getD ""
    let g ← SpeciesGroup.ofValue? name members units
    overriddenGroups (groups.put name g) rest

/-- The species groups in effect. -/
def groupsOf (settings : Mapping) : Attempt SpeciesGroups :=
  match givenGroups settings with
  | .map entries => overriddenGroups Catalog.defaultGroups entries
  | v => .error (noMapping v)

/-- Checks that no species group has the name of a quantity, and that all of them can be
built. -/
def checkGroups (settings : Mapping) : Attempt Unit := do
  let reserved := Catalog.reserved (← searchedNames (givenGroups settings))
  if reserved ≠ [] then .error (Catalog.reservedFailure reserved)
  else do
    let _ ← groupsOf settings
    .ok ()

/-- Checks all sections. -/
def check (settings : Mapping) : Attempt Unit := do
  checkInput settings
  checkProcessing settings
  checkGroups settings

end GridStream.Config
