import GridStream.Command.Listing
import GridStream.Command.Summary

/-!
# Running a command line

A command line asks for something and is answered. The files that a command may ask for are known
before it runs: its configuration file, and the dated files that cover the window of the configured
run.
-/

namespace GridStream

namespace Command

/-- The text that explains how the program is used. -/
def usage : String :=
  String.intercalate "\n"
    ["usage: gridstream [-h] \x7blist-quantities,summarize\x7d ...",
      "",
      "Derives quantities from dated files of a model run.",
      "",
      "commands:",
      "  list-quantities  list the quantities, their units and source variables",
      "    --config FILE",
      "  summarize QUANTITY  pull one quantity over the window and log statistics of each record",
      "    --config FILE  --path-template PATH  --start YYYYMMDD  --end YYYYMMDD",
      "    --record-interval SPAN  --file-interval SPAN  --max-records N",
      "    --log-level LEVEL  --log-file FILE"]

/-- Runs a command line. A line that makes no sense ends with 2, one that asks for nothing with an
explanation and 1. -/
def run (s : Surroundings) (args : List String) : Outcome :=
  match request args with
  | .help => { ending := .ok 0, printed := [usage], files := s.files }
  | .misuse => { ending := .ok 2, complaints := [usage], files := s.files }
  | .ok .nothing => { ending := .ok 1, printed := [usage], files := s.files }
  | .ok (.listQuantities config) => listQuantities s config
  | .ok (.summarize r) => summarize s r

end Command

/-! ## What a command reads -/

/-- The times at which the files of a window start. -/
def Window.fileStarts (w : Window) : List Instant :=
  let count := -(-(w.stop.since w.start) / w.file.micros)
  (List.range count.toNat).filterMap fun k : Nat => w.start.shift? (k * w.file.micros)

namespace Command

/-- The configuration file of a request, empty if there is none. -/
def Request.configFile : Request → String
  | .nothing => ""
  | .listQuantities config => configName config
  | .summarize r => configName r.config

/-- The dated files that a request may read, given the configuration file. -/
def Request.dataFiles (s : Surroundings) : Request → List String
  | .summarize r =>
    let names : Attempt (List String) := do
      let c ← s.load r.config (.map r.overrides)
      let run ← c.run
      run.window.fileStarts.mapM (expandedPath run.template c.datePattern)
    match names with
    | .ok names => names
    | .error _ => []
  | _ => []

end Command

end GridStream
