import GridStream.LandUse.Table
import GridStream.Producer.World

/-!
# Producers

A producer gives one grid for each record of a window. A raw producer reads a stored variable,
record by record, from the files that cover the window. A combined producer derives its grids from
those of other producers, which it pulls in order, once each.

A pull gives a grid, or says that the window is exhausted, or fails. A producer that has failed is
halted: all it does from then on is to repeat what it failed with. Whenever a pull gives no grid,
all files of the producer are closed.
-/

namespace GridStream

/-- What a combined producer does with the grids of its inputs. -/
inductive Rule
  /-- Applies a function. -/
  | function (apply : List Grid → Attempt Grid)
  /-- Adds up with weights. -/
  | weighted (weights : List Float)
  /-- Looks up the codes of a single grid. -/
  | remap (table : LookupTable)

/-- A tree of producers. The keys tell the producers apart. A producer may be an input of more
than one other. -/
inductive Producer
  | raw (key : Nat) (name : String) (window : Window)
  | combined (key : Nat) (name : Value) (rule : Rule) (first : Producer) (others : List Producer)

/-- What comes of a pull. -/
inductive Pull (α : Type)
  | item (a : α)
  | finished
  | failed (f : Failure)

/-- Applies a rule to grids of one shape. The time and the name are those of the producer. A
function or a sum is an operation with a context, a look-up gives the time itself. -/
def Rule.apply (rule : Rule) (name : Value) (time : Option Instant) (grids : List Grid) :
    Attempt Grid :=
  let op : Operation := {
    name := s!"deriving {name.toText}"
    info := [("quantity", name),
      ("timestamp", match time with
        | some t => .text t.iso
        | none => .null)] }
  match rule with
  | function apply => (apply grids).within op
  | weighted weights => (Grid.weightedSum weights grids).within op
  | remap table =>
    match grids with
    | [g] => table.remap time g
    | _ => .error (.badValue "a look-up takes a single grid")

namespace Producer

def key : Producer → Nat
  | raw key .. => key
  | combined key .. => key

def name : Producer → Value
  | raw _ name _ => .text name
  | combined _ name .. => name

def kind : Producer → String
  | raw .. => "VariableProducer"
  | combined _ _ rule _ _ =>
    match rule with
    | .function _ => "CombinedProducer"
    | .weighted _ => "VariableGroupProducer"
    | .remap _ => "CategoricalRemapProducer"

/-- Kind and name of a producer. -/
def text (p : Producer) : String := s!"{p.kind}(name={p.name.inner})"

/-- The time of the last grid of a producer. -/
def timestamp (p : Producer) (w : World) : Option Instant := (w.slot p.key).timestamp

/-- Whether a producer has failed. -/
def halted (p : Producer) (w : World) : Bool := (w.slot p.key).failure.isSome

mutual

/-- Closes the files that a producer and its inputs hold. -/
def close (w : World) : Producer → World
  | raw key _ _ => w.release key
  | combined _ _ _ first others => closeAll (close w first) others

/-- Closes the files that several producers hold. -/
def closeAll (w : World) : List Producer → World
  | [] => w
  | p :: ps => closeAll (close w p) ps

end

/-- The failure of pulling a producer that has failed before. -/
def haltedFailure (name : Value) (f : Failure) : Failure :=
  { kind := .halted
    message := s!"Producer '{name.toText}' halted after an earlier failure: {f.text}"
    context := [("producer", name)]
    cause := some f.kind }

/-- The operation of opening a file for a variable. -/
def opening (path name : String) (start : Instant) : Operation where
  name := s!"opening {path}"
  info := [("variable", .text name), ("file_time", .text start.iso)]

/-- The operation of reading a record of a variable. -/
def reading (name : String) (time : Instant) (index : Int) : Operation where
  name := s!"reading {name}"
  info := [("variable", .text name), ("timestamp", .text time.iso), ("record_index", .int index)]

/-- Steps to the file that starts at a time: closes the file that is open, says which one comes
next, and opens it. -/
def stepInto (s : Source) (w : World) (key : Nat) (name : String) (start : Instant) :
    Attempt Unit × World :=
  let w := w.release key
  match s.describe start with
  | .error f => (.error f, w)
  | .ok path =>
    let w := w.announce s!"Reading {name} from {path}"
    match w.openFile s start with
    | (.error f, w) => (.error (f.within (opening path name start)), w)
    | (.ok h, w) =>
      (.ok (), w.modify key fun slot => { slot with handle := some h, fileTime := some start })

/-- Steps to the file that starts at a time, unless the producer takes it to be open. -/
def enter (s : Source) (w : World) (key : Nat) (name : String) (start : Instant) :
    Attempt Unit × World :=
  if (w.slot key).fileTime = some start then (.ok (), w) else stepInto s w key name start

def readRecordAt (s : Source) (w : World) (key : Nat) (name : String) (window : Window)
    (time : Instant) : Pull Grid × World :=
  match window.fileStart? time with
  | none => (.failed .outOfCalendar, w)
  | some start =>
    match enter s w key name start with
    | (.error f, w) => (.failed f, w)
    | (.ok (), w) =>
      let index := window.recordIndex time
      match w.readHeld key name index with
      | (.error f, w) => (.failed (f.within (reading name time index)), w)
      | (.ok g, w) => (.item g, w.modify key fun slot => { slot with timestamp := some time })

/-- Reads the next record and moves on. -/
def readNext (s : Source) (w : World) (key : Nat) (name : String) (window : Window) :
    Pull Grid × World :=
  match (Cursor.mk window (w.slot key).position).advance with
  | .exhausted => (.finished, w)
  | .outOfCalendar => (.failed .outOfCalendar, w)
  | .record time next =>
    readRecordAt s (w.modify key fun slot => { slot with position := next.current }) key name
      window time

/-- Derives a grid from those of the inputs, whose names are given. The time is that of the first
input. -/
def derive (w : World) (key : Nat) (name : Value) (rule : Rule) (time : Option Instant)
    (inputs : List Value) (grids : List Grid) : Pull Grid × World :=
  let w := w.modify key fun slot => { slot with timestamp := time }
  match checkShapes name inputs (grids.map (·.shape)) with
  | .error f => (.failed f, w)
  | .ok () =>
    let w := w.record (.applied key)
    match rule.apply name time grids with
    | .error f => (.failed f, w)
    | .ok g => (.item g, w)

/-- Ends a pull: closes all files unless there is a grid, and halts the producer after a
failure. -/
def settle (p : Producer) : Pull Grid × World → Pull Grid × World
  | (.item g, w) => (.item g, w)
  | (.finished, w) => (.finished, close w p)
  | (.failed f, w) =>
    (.failed f, close (w.modify p.key fun slot => { slot with failure := some f }) p)

mutual

/-- Asks a producer for its next grid. -/
def pull (s : Source) (w : World) : Producer → Pull Grid × World
  | raw key name window =>
    let w := w.record (.pulled key)
    match (w.slot key).failure with
    | some f => (.failed (haltedFailure (.text name) f), w)
    | none => settle (raw key name window) (readNext s w key name window)
  | combined key name rule first others =>
    let w := w.record (.pulled key)
    match (w.slot key).failure with
    | some f => (.failed (haltedFailure name f), w)
    | none =>
      settle (combined key name rule first others) <|
        match pull s w first with
        | (.finished, w) => (.finished, w)
        | (.failed f, w) => (.failed f, w)
        | (.item g, w) =>
          match pullAll s w others with
          | (.finished, w) => (.finished, w)
          | (.failed f, w) => (.failed f, w)
          | (.item gs, w) =>
            derive w key name rule (first.timestamp w)
              ((first :: others).map Producer.name) (g :: gs)

/-- Asks several producers for their next grids, in order, up to the first that gives none. -/
def pullAll (s : Source) (w : World) : List Producer → Pull (List Grid) × World
  | [] => (.item [], w)
  | p :: ps =>
    match pull s w p with
    | (.finished, w) => (.finished, w)
    | (.failed f, w) => (.failed f, w)
    | (.item g, w) =>
      match pullAll s w ps with
      | (.finished, w) => (.finished, w)
      | (.failed f, w) => (.failed f, w)
      | (.item gs, w) => (.item (g :: gs), w)

end

end Producer

namespace World

/-- Adds a producer of a stored variable. -/
def addRaw (w : World) (name : String) (window : Window) : Producer × World :=
  let (key, w) := w.addSlot { position := window.start }
  (.raw key name window, w)

/-- Adds a producer that derives its grids from those of others. -/
def join (w : World) (name : Value) (rule : Rule) (first : Producer) (others : List Producer) :
    Producer × World :=
  let (key, w) := w.addSlot default
  (.combined key name rule first others, w)

/-- Adds a producer that derives its grids from those of others, of which there must be at least
one. -/
def addCombined (w : World) (name : Value) (rule : Rule) (inputs : List Producer) :
    Attempt (Producer × World) :=
  match inputs with
  | [] =>
    .error (.badValue
      s!"Derived quantity '{name.toText}' needs at least one upstream producer")
  | first :: others => .ok (w.join name rule first others)

end World

end GridStream
