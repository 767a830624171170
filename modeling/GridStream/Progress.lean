import GridStream.Journal

/-!
# Progress messages

Producers report which files they read. A message goes to a sink, which may keep it, pass it on or
drop it; a sink that fails is reported with a warning and never disturbs the producer.
-/

namespace GridStream

/-- Messages that wait to be fetched. A queue whose limit is not positive has none. -/
structure MessageQueue where
  limit : Int
  content : List String := []
  /-- The number of messages that found the queue full. -/
  dropped : Nat := 0

namespace MessageQueue

/-- Whether no further message fits. -/
def isFull (q : MessageQueue) : Bool := 0 < q.limit && q.limit ≤ q.content.length

/-- Adds a message at the end. A message that does not fit is dropped and counted. -/
def put (q : MessageQueue) (message : String) : MessageQueue :=
  if q.isFull then { q with dropped := q.dropped + 1 }
  else { q with content := q.content ++ [message] }

/-- Fetches the first message, if there is one. -/
def take? (q : MessageQueue) : Option (String × MessageQueue) :=
  match q.content with
  | [] => none
  | message :: rest => some (message, { q with content := rest })

end MessageQueue

/-- A function that is handed messages and may fail. What it makes of a message may depend on all
messages before. -/
structure Listener where
  failure? : (before : List String) → (message : String) → Option Failure
  /-- The messages that were handed to it. -/
  handed : List String := []

/-- A receiver of progress messages. -/
inductive Sink
  /-- Discards everything. -/
  | silent
  | queue (q : MessageQueue)
  /-- Hands each message to a function, which may fail. `seen` holds the messages that it took. -/
  | callback (listener : Listener) (seen : List String)
  /-- Logs each message with a level. `seen` holds the entries that reach the threshold. -/
  | log (level threshold : Level) (seen : List Entry)

namespace Sink

def send (s : Sink) (message : String) : Sink × Option Failure :=
  match s with
  | silent => (silent, none)
  | queue q => (queue (q.put message), none)
  | callback listener seen =>
    let after := { listener with handed := listener.handed ++ [message] }
    match listener.failure? listener.handed message with
    | some f => (callback after seen, some f)
    | none => (callback after (seen ++ [message]), none)
  | log level threshold seen =>
    (log level threshold
      (if threshold.number ≤ level.number then seen ++ [⟨level, message⟩] else seen), none)

/-- A callback that fails for the messages in which `mark` occurs. -/
def brokenOn (mark : Option String) : Sink :=
  callback ⟨fun _ message =>
    match mark with
    | some mark =>
      if Text.contains mark message then some (.badValue "sink is broken") else none
    | none => none, []⟩ []

end Sink

/-- Where progress messages go, and the warnings about sinks that failed. -/
structure Progress where
  sink : Option Sink := none
  warnings : List Entry := []

namespace Progress

/-- Delivers a message as well as it can. -/
def notify (p : Progress) (message : String) : Progress :=
  match p.sink with
  | none => p
  | some sink =>
    match sink.send message with
    | (sink, none) => { p with sink := some sink }
    | (sink, some f) =>
      { sink := some sink
        warnings := p.warnings ++
          [⟨.warning, s!"Progress sink failed on '{message}': {f.text}"⟩] }

end Progress

end GridStream
