import GridStream.Failure

/-!
# Time windows

A window is a stretch of time from a start up to, but not including, a stop. Records lie in it at
equal distances from the start on, and are stored in files that each span a whole number of
records. A time on the boundary of two files belongs to the file that starts there.
-/

namespace GridStream

/-- A stretch of time with the distance between its records and the length of its files. -/
structure Window where
  start : Instant
  stop : Instant
  record : Span
  file : Span
  start_le_stop : start ≤ stop
  record_pos : 0 < record.micros
  record_le_file : record.micros ≤ file.micros
  whole : file.micros % record.micros = 0

namespace Window

/-- The window with the given bounds and intervals. The bounds are checked first. -/
def make? (start stop : Instant) (record file : Span) : Attempt Window :=
  if h₁ : start ≤ stop then
    if h₂ : 0 < record.micros ∧ 0 < file.micros then
      if h₃ : record.micros ≤ file.micros then
        if h₄ : file.micros % record.micros = 0 then
          .ok ⟨start, stop, record, file, h₁, h₂.1, h₃, h₄⟩
        else
          .error (.configuration
            (s!"File interval {file.text} is not a whole number of record intervals " ++
              s!"({record.text})")
            [("record_interval", .text record.text), ("file_interval", .text file.text)])
      else
        .error (.configuration
          s!"File interval {file.text} is shorter than record interval {record.text}")
    else .error (.configuration "Record and file intervals must be positive")
  else
    .error (.configuration s!"End time {stop.text} is before start time {start.text}"
      [("start", .text start.text), ("end", .text stop.text)])

/-- The number of records of a file. -/
def recordsPerFile (w : Window) : Int := w.file.micros / w.record.micros

/-- The number of the file that covers a time, counted from the file at the start. -/
def fileNumber (w : Window) (t : Instant) : Int := t.since w.start / w.file.micros

/-- The start of the file that covers a time, if the calendar has it. -/
def fileStart? (w : Window) (t : Instant) : Option Instant :=
  w.start.shift? (w.fileNumber t * w.file.micros)

/-- The position of a time's record within its file. -/
def recordIndex (w : Window) (t : Instant) : Int :=
  t.since w.start % w.file.micros / w.record.micros

end Window

/-- A position in a window: the time of the next record. -/
structure Cursor where
  window : Window
  current : Instant

namespace Cursor

/-- The position at the first record of a window. -/
def atStart (w : Window) : Cursor := ⟨w, w.start⟩

/-- Whether no record is left. -/
def exhausted (c : Cursor) : Bool := c.window.stop ≤ c.current

/-- The number of records left. -/
def remaining (c : Cursor) : Int :=
  if c.exhausted then 0
  else -(-(c.window.stop.since c.current) / c.window.record.micros)

/-- What comes of a step to the next record. -/
inductive Step
  /-- The time of the record, and the position behind it. -/
  | record (time : Instant) (next : Cursor)
  | exhausted
  /-- The position behind the record lies beyond the calendar. -/
  | outOfCalendar

/-- Steps over the next record. -/
def advance (c : Cursor) : Step :=
  if c.exhausted then .exhausted
  else
    match c.current.shift? c.window.record.micros with
    | some next => .record c.current { c with current := next }
    | none => .outOfCalendar

/-- The position at the first record again. -/
def reset (c : Cursor) : Cursor := atStart c.window

end Cursor

end GridStream
