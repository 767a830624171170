import GridStream.Value.Text

/-!
# Failures

A failure has a kind, a message and a context of named values. The kinds of this library form one
family; a failure of any other kind is foreign and is known by the name of its class. An operation
that fails adds its own context on the way out, and turns a foreign failure into one of the family
(`Failure.within`).

What a clock would show is left out: the moment at which a failure arises, and how long an operation
ran. The context of a failure names the latter as `duration`, between the name of the operation and
its own items; a law that is to hold with it is one about operations that have such an item.
-/

namespace GridStream

inductive FailureKind
  | general
  /-- A malformed date, interval, template or species group. -/
  | configuration
  /-- A dated file that is missing, damaged or unreadable. -/
  | gridFile
  /-- A variable that a readable file does not hold. -/
  | missingVariable
  /-- Grids to be combined that differ in shape. -/
  | shapeMismatch
  /-- A category code outside its lookup table. -/
  | lookupRange
  /-- A pull from a producer that failed before. -/
  | halted
  | foreign (className : String)
  deriving DecidableEq, Repr

namespace FailureKind

/-- The name that a kind is reported under. -/
def name : FailureKind → String
  | general => "PreprocessorError"
  | configuration => "ConfigurationError"
  | gridFile => "GridFileError"
  | missingVariable => "MissingVariableError"
  | shapeMismatch => "ShapeMismatchError"
  | lookupRange => "LookupRangeError"
  | halted => "ProducerHaltedError"
  | foreign className => className

def family : List FailureKind :=
  [general, configuration, gridFile, missingVariable, shapeMismatch, lookupRange, halted]

def ofName (name : String) : FailureKind :=
  (family.find? (·.name == name)).getD (foreign name)

/-- Whether a kind is not of the family. -/
def isForeign : FailureKind → Bool
  | foreign _ => true
  | _ => false

end FailureKind

/-- Named values, in the order in which the names were first set. -/
abbrev Context := List (String × Value)

namespace Context

/-- Sets a name. A name that is there already keeps its place. -/
def put : Context → String → Value → Context
  | [], name, value => [(name, value)]
  | (n, v) :: rest, name, value =>
    if n = name then (n, value) :: rest else (n, v) :: put rest name value

/-- Sets all names of `items`, one after the other. -/
def update (c items : Context) : Context := items.foldl (fun c item => c.put item.1 item.2) c

def get? (c : Context) (name : String) : Option Value :=
  (c.find? (·.1 == name)).map (·.2)

end Context

/-- A failed computation's report. -/
structure Failure where
  kind : FailureKind
  message : String
  context : Context := []
  /-- The kind of the failure that this one stems from. -/
  cause : Option FailureKind := none

/-- The result of a computation that may fail. -/
abbrev Attempt (α : Type) := Except Failure α

/-- An operation with a name and named values that tell one run of it from another. -/
structure Operation where
  name : String
  info : Context := []

/-- What an operation adds to the context of a failure, but for the time that it took. An item of
its own called `operation` takes the place of its name. -/
def Operation.items (op : Operation) : Context :=
  Context.update [("operation", .text op.name)] op.info

namespace Failure

/-- The text of a failure inside another message. A failed look-up shows the key that it failed
for, which is quoted. -/
def text (f : Failure) : String :=
  if f.kind = .foreign "KeyError" then Text.quoted f.message else f.message

/-- The failure as it leaves an operation: with the operation's items in its context, and as one
of the family. -/
def within (op : Operation) (f : Failure) : Failure :=
  if f.kind.isForeign then
    { kind := .general, message := f.text, context := op.items, cause := some f.kind }
  else { f with context := f.context.update op.items }

def configuration (message : String) (context : Context := []) : Failure :=
  { kind := .configuration, message, context }

/-- A value of a type that an operation does not work on. -/
def wrongType (message : String := "") : Failure := ⟨.foreign "TypeError", message, [], none⟩

/-- A value that lacks an operation which only other types have. -/
def noOperation (message : String := "") : Failure := ⟨.foreign "AttributeError", message, [], none⟩

/-- A value of the right type that is not acceptable. -/
def badValue (message : String := "") : Failure := ⟨.foreign "ValueError", message, [], none⟩

/-- A number or a time beyond its range. -/
def outOfRange (message : String := "") : Failure := ⟨.foreign "OverflowError", message, [], none⟩

/-- A position beyond the end of a sequence. -/
def noPosition (message : String := "") : Failure := ⟨.foreign "IndexError", message, [], none⟩

/-- A key that a mapping does not hold. -/
def noKey (message : String := "") : Failure := ⟨.foreign "KeyError", message, [], none⟩

/-- What becomes of something that this library has no account of. No operation fails with this; it
stands in the place of what really comes of it. -/
def undescribed (message : String := "") : Failure := ⟨.foreign "Undescribed", message, [], none⟩

/-- A failure that stands for something else. -/
def Undescribed (f : Failure) : Prop := f.kind = .foreign "Undescribed"

/-- The failure of stepping out of the calendar. -/
def outOfCalendar : Failure := outOfRange "date value out of range"

end Failure

/-- Checks that a value can be looked up as a key. -/
def Value.checkKey (v : Value) : Attempt Unit :=
  if v.isKey then .ok () else .error (.wrongType s!"{v.inner} cannot be a key")

/-- Runs a computation as part of an operation. -/
def Attempt.within (op : Operation) (a : Attempt α) : Attempt α := a.mapError (·.within op)

end GridStream
