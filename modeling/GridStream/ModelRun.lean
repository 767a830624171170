import GridStream.Calendar.DateText
import GridStream.Calendar.DurationText
import GridStream.Catalog

/-!
# Model runs

A model run is a window of time, a path template for the files that cover it, and the species
groups in effect. From a run any quantity can be produced, each producer with a position of its
own that begins at the start of the window.
-/

namespace GridStream

structure ModelRun where
  template : Value
  window : Window
  groups : SpeciesGroups

/-- The settings that a model run is made from. -/
structure RunSettings where
  template : Value
  start : Value
  stop : Value
  record : Value := .text "1h"
  file : Value := .text "24h"
  groups : SpeciesGroups := []

/-- Whether the mark of a date occurs in a template: in a text, or as an item or a key. Other
values, bytes among them, cannot be searched for a text. -/
def hasDateMark (template : Value) : Attempt Bool :=
  match template with
  | .text s => .ok (Text.contains dateMark s)
  | .list items | .tuple items | .set items => .ok (items.any (Value.same (.text dateMark)))
  | .map entries => .ok (entries.any fun e => Value.same (.text dateMark) e.1)
  | v => .error (.wrongType s!"{v.inner} cannot be searched")

def checkTemplate (template : Value) : Attempt Unit := do
  let marked ← if template.isTrue then hasDateMark template else .ok false
  if marked then .ok ()
  else
    .error (.configuration s!"Path template must contain {dateMark}: {template.inner}"
      [("path_template", template)])

namespace ModelRun

/-- The run with the given settings. Template, dates, intervals, group names and the window as a
whole are checked in this order. -/
def make? (settings : RunSettings) : Attempt ModelRun := do
  checkTemplate settings.template
  let start ← parseDate "start date" settings.start
  let stop ← parseDate "end date" settings.stop
  let record ← parseDuration "record interval" settings.record
  let file ← parseDuration "file interval" settings.file
  let reserved := Catalog.reserved settings.groups.names
  if reserved ≠ [] then .error (Catalog.reservedFailure reserved)
  else
    let window ← Window.make? start stop record file
    .ok { template := settings.template, window
          groups := Catalog.defaultGroups.update settings.groups }

/-- The number of grids that every producer gives. -/
def recordCount (run : ModelRun) : Int := (Cursor.atStart run.window).remaining

/-- A producer of a stored variable. -/
def read (run : ModelRun) (w : World) (name : String) : Producer × World :=
  w.addRaw name run.window

/-- Producers of stored variables. -/
def readAll (run : ModelRun) (w : World) : List String → List Producer × World
  | [] => ([], w)
  | name :: names =>
    let (p, w) := run.read w name
    let (ps, w) := run.readAll w names
    (p :: ps, w)

/-- A producer of the weighted sum of a group. -/
def readGroup (run : ModelRun) (w : World) (g : SpeciesGroup) : Attempt (Producer × World) :=
  let (inputs, w) := run.readAll w g.memberNames
  w.addCombined g.name (.weighted g.weights) inputs

def produce (run : ModelRun) (w : World) : Formula → Producer × World
  | .stored name => run.read w name
  | .derived name derivation left right =>
    let (left, w) := run.produce w left
    let (right, w) := run.produce w right
    w.join (.text name) (.function derivation.apply) left [right]
  | .remapped name table source =>
    let (input, w) := run.read w source
    w.join (.text name) (.remap table) input []

/-- A producer of a quantity or a species group. Groups come first. -/
def producer (run : ModelRun) (w : World) (name : Value) : Attempt (Producer × World) := do
  name.checkKey
  match run.groups.get? name with
  | some g => run.readGroup w g
  | none =>
    match Catalog.find? name with
    | some q => .ok (run.produce w q.formula)
    | none =>
      match run.groups.names.mapM Value.text? with
      | none => .error (.wrongType "names of different types have no order")
      | some names =>
        let sort (names : List String) := names.mergeSort fun a b => a ≤ b
        let available := sort Catalog.names ++ sort names
        .error (.noKey
          s!"Unknown quantity '{name.toText}'. Available: {Value.textList available}")

/-- The failure of asking for a group that there is not. -/
def noGroup (name : String) : Failure :=
  .configuration s!"No species group configured for '{name}'" [("quantity", .text name)]

/-- A producer of a quantity of the catalogue, or of a group that has a default. -/
def quantity (run : ModelRun) (w : World) (name : String) : Attempt (Producer × World) :=
  match Catalog.find? (.text name) with
  | some q => .ok (run.produce w q.formula)
  | none =>
    if (Catalog.defaultGroups.get? (.text name)).isSome then
      match run.groups.get? (.text name) with
      | some g => run.readGroup w g
      | none => .error (noGroup name)
    else .error (.noOperation s!"there is no quantity '{name}'")

end ModelRun

end GridStream
