import GridStream.Progress
import GridStream.Source
import GridStream.Window

/-!
# The state of producers

Every producer has a slot, under a key of its own, that holds all that changes while it is pulled.
The slots, the files that are open and the progress messages together are the world that a pull
acts on. The trace of a world lists what happened in it.
-/

namespace GridStream

/-- An open file. -/
structure Handle where
  /-- The number of files opened before this one. -/
  id : Nat
  /-- The time at which the file starts. -/
  start : Instant
  file : DataFile

/-- What changes while a producer is pulled. -/
structure Slot where
  /-- The time of the next record of a producer that reads records. -/
  position : Instant
  /-- The time of the last grid. -/
  timestamp : Option Instant := none
  /-- What a pull failed with, if one did. -/
  failure : Option Failure := none
  /-- The open file that the producer holds. -/
  handle : Option Handle := none
  /-- The start of the file that the producer takes to be open. -/
  fileTime : Option Instant := none
  deriving Inhabited

/-- Something that happens while producers are pulled. -/
inductive Event
  /-- A producer was asked for its next grid. -/
  | pulled (key : Nat)
  /-- A producer applied its rule to grids of its inputs. -/
  | applied (key : Nat)
  /-- A progress message was sent. -/
  | announced (message : String)
  /-- The file that starts at a time was asked for. -/
  | requested (start : Instant)
  /-- A file was opened. -/
  | opened (handle : Nat) (start : Instant)
  /-- A record of a variable was asked for. -/
  | read (handle : Nat) (name : String) (index : Int)
  | closed (handle : Nat) (start : Instant)
  deriving DecidableEq

/-- What producers act on. -/
structure World where
  slots : Array Slot := #[]
  /-- The number of files that were ever opened. -/
  opened : Nat := 0
  /-- What happened, the last first. -/
  trace : List Event := []
  progress : Progress := {}

namespace World

def slot (w : World) (key : Nat) : Slot := w.slots.getD key default

/-- Changes the slot of a key. -/
def modify (w : World) (key : Nat) (f : Slot → Slot) : World :=
  { w with slots := w.slots.modify key f }

/-- Adds a slot. Its key is returned with the world. -/
def addSlot (w : World) (s : Slot) : Nat × World :=
  (w.slots.size, { w with slots := w.slots.push s })

/-- Adds an event to the trace. -/
def record (w : World) (e : Event) : World := { w with trace := e :: w.trace }

/-- Sends a progress message. -/
def announce (w : World) (message : String) : World :=
  { w.record (.announced message) with progress := w.progress.notify message }

/-- Opens the file that starts at a time. -/
def openFile (w : World) (s : Source) (start : Instant) : Attempt Handle × World :=
  let w := w.record (.requested start)
  match s.openAt start with
  | .error f => (.error f, w)
  | .ok file =>
    (.ok ⟨w.opened, start, file⟩,
      { w.record (.opened w.opened start) with opened := w.opened + 1 })

def closeFile (w : World) (h : Handle) : World := w.record (.closed h.id h.start)

/-- Reads a record from an open file. -/
def readRecord (w : World) (h : Handle) (name : String) (index : Int) : Attempt Grid × World :=
  (h.file.read name index, w.record (.read h.id name index))

/-- Closes the file that a producer holds, if it holds one. -/
def release (w : World) (key : Nat) : World :=
  match (w.slot key).handle with
  | none => w
  | some h => (w.modify key fun s => { s with handle := none, fileTime := none }).closeFile h

/-- Reads a record from the file that a producer holds. -/
def readHeld (w : World) (key : Nat) (name : String) (index : Int) : Attempt Grid × World :=
  match (w.slot key).handle with
  | none => (.error (.noOperation "no file is open"), w)
  | some h => w.readRecord h name index

/-- Reads one record of a variable at a time, from a file that is opened for it and closed
afterwards. Files are taken to be in step with midnight. -/
def readAt (w : World) (s : Source) (name : String) (time : Instant) (record file : Span) :
    Attempt Grid × World :=
  match Window.make? time.midnight time record file with
  | .error f => (.error f, w)
  | .ok window =>
    match window.fileStart? time with
    | none => (.error .outOfCalendar, w)
    | some start =>
      match w.openFile s start with
      | (.error f, w) => (.error f, w)
      | (.ok h, w) =>
        let (result, w) := w.readRecord h name (window.recordIndex time)
        (result, w.closeFile h)

end World

end GridStream
