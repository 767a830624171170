import GridStream.Command.Request
import GridStream.Grid.Summary
import GridStream.Logging

/-!
# The summary of a quantity

One quantity is pulled over the window of a model run, and a line with the least, the greatest and
the mean cell is logged for every record. The summary ends with the window, with the number of
records that was asked for, or with the first failure, which is logged with its context.
-/

namespace GridStream.Command

/-- Entries of a mapping for the values that are not null. -/
def givenEntries (entries : List (String × Value)) : Mapping :=
  entries.filterMap fun (field, v) =>
    match v with
    | .null => none
    | v => some (.text field, v)

/-- A section with its entries, left out if there are none. -/
def givenSection (key : Value) (entries : Mapping) : Mapping :=
  if entries.isEmpty then [] else [(key, .map entries)]

/-- The layer of a configuration that the options of a request make. Options that were not given
override nothing. -/
def SummaryRequest.overrides (r : SummaryRequest) : Mapping :=
  givenSection Config.inputKey
      (givenEntries [("path_template", r.template), ("start_date", r.start),
        ("end_date", r.stop), ("record_interval", r.record), ("file_interval", r.file)]) ++
    givenSection Config.processingKey
      (givenEntries [("log_level", r.logLevel), ("log_file", r.logFile)])

/-- The state of a running summary. -/
structure Progression where
  world : World
  log : Log

namespace Progression

/-- Writes a line to the main log. -/
def write (p : Progression) (level : Level) (message : String) : Progression :=
  { p with log := p.log.write Log.mainName ⟨level, message⟩ }

/-- Moves the progress messages that have come in to the log. -/
def drain (p : Progression) : Progression :=
  match p.world.progress.sink with
  | some (.log level threshold seen) =>
    { world := { p.world with
        progress := { p.world.progress with sink := some (.log level threshold []) } }
      log := seen.foldl (·.write Log.progressName ·) p.log }
  | _ => p

/-- Logs a failure. Unknown names are shown as they are, failures of the library's own kinds with
their context; any other failure goes on. -/
def fail (p : Progression) (quantity : String) (f : Failure) :
    Progression × Except Failure Nat :=
  if f.kind = .foreign "KeyError" then (p.write .error f.text, .ok 1)
  else if f.kind.isForeign then (p, .error f)
  else
    let p := p.write .error s!"Summarizing {quantity} failed: {f.text}"
    (f.context.foldl (fun p item => p.write .error s!"  {item.1}: {item.2.toText}") p, .ok 1)

end Progression

def recordLine (quantity : String) (time : Instant) (summary : String) : String :=
  let shown := Pattern.expand "%Y-%m-%d %H:%M" time
  s!"{quantity} {shown}: {summary}"

/-- Summarizes at most `pulls` records. -/
def summarizeRecords (s : Source) (producer : Producer) (quantity : String) :
    (pulls : Nat) → Progression → Progression × Option Failure
  | 0, p => (p, none)
  | pulls + 1, p =>
    let (result, world) := producer.pull s p.world
    let p := { p with world }.drain
    match result with
    | .finished => (p, none)
    | .failed f => (p, some f)
    | .item g =>
      match g.summary?, producer.timestamp p.world with
      | some summary, some time =>
        summarizeRecords s producer quantity pulls
          (p.write .info (recordLine quantity time summary))
      | none, _ => (p, some (.badValue "a grid without cells has no summary"))
      | _, none => (p, some .wrongType)

/-- The number of pulls that a limit allows for. A window of `count` records is exhausted one pull
behind its last record. -/
def pullCount (count : Int) (limit : Option Int) : Attempt Nat :=
  match limit with
  | none => .ok (count.toNat + 1)
  | some n =>
    if 0 ≤ n ∧ n < Int.pow 2 63 then .ok (min n.toNat (count.toNat + 1))
    else .error (.badValue "the number of records must not be negative")

/-- The limit that an option sets. -/
def limitOf? (v : Value) : Attempt (Option Int) :=
  match v with
  | .null => .ok none
  | .int n => .ok (some n)
  | v => .error (.wrongType s!"{v.inner} is no number of records")

/-- What a summary pulls: a producer with its source, and how often. -/
structure Plan where
  source : Source
  producer : Producer
  pulls : Nat

/-- Plans a summary of a configured run. -/
def plan (c : Configuration) (r : SummaryRequest) (p : Progression) : Attempt (Plan × World) := do
  let run ← c.run
  let limit ← limitOf? r.maxRecords
  let world := { p.world with progress := { p.world.progress with sink := c.defaultSink } }
  let (producer, world) ← run.producer world (.text r.quantity)
  let pulls ← pullCount run.recordCount limit
  .ok (⟨.stored run.template c.datePattern p.log.files, producer, pulls⟩, world)

/-- Summarizes a quantity with a configuration and a log. -/
def summarizeWith (c : Configuration) (r : SummaryRequest) (log : Log) :
    Progression × Except Failure Nat :=
  let p : Progression := { world := {}, log }
  match plan c r p with
  | .error f => p.fail r.quantity f
  | .ok (plan, world) =>
    let (p, failure?) :=
      summarizeRecords plan.source plan.producer r.quantity plan.pulls { p with world }
    let p := { p with world := plan.producer.close p.world }
    match failure? with
    | some f => p.fail r.quantity f
    | none => (p.write .info s!"Summarized {r.quantity} successfully", .ok 0)

/-- Summarizes a quantity with a configuration. -/
def summarizeConfigured (files : FolderTree) (c : Configuration) (r : SummaryRequest) : Outcome :=
  match Configuration.fieldOf c.processing "log_level" with
  | none => { ending := .error (.noKey "log_level"), files }
  | some level =>
    let file := (Configuration.fieldOf c.processing "log_file").getD .null
    match Log.setup { files } level file true with
    | (log, some f) => { ending := .error f, files := log.files }
    | (log, none) =>
      let (p, ending) := summarizeWith c r log
      { ending, printed := p.log.console, files := p.log.files }

/-- Summarizes a quantity with the configuration that is asked for. -/
def summarize (s : Surroundings) (r : SummaryRequest) : Outcome :=
  match s.load r.config (.map r.overrides) with
  | .error f => .ofConfigFailure s.files f
  | .ok c => summarizeConfigured s.files c r

end GridStream.Command
