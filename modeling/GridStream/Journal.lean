import GridStream.Failure

/-!
# Journals

Levels of importance, and the lines that nested operations write about their progress. How long an
operation took is left out of the line that it ends with.
-/

namespace GridStream

/-- How important a message is. -/
inductive Level
  | debug | info | warning | error | critical
  deriving DecidableEq, Repr

namespace Level

def number : Level → Nat
  | debug => 10
  | info => 20
  | warning => 30
  | error => 40
  | critical => 50

def name : Level → String
  | debug => "DEBUG"
  | info => "INFO"
  | warning => "WARNING"
  | error => "ERROR"
  | critical => "CRITICAL"

/-- The levels from the least to the most important. -/
def all : List Level := [debug, info, warning, error, critical]

def ofName? (name : String) : Option Level := all.find? (·.name == name)

end Level

/-- A message with its level. -/
structure Entry where
  level : Level
  message : String
  deriving DecidableEq, Repr

namespace Operation

/-- The result of a body that runs inside nested operations, outermost first. -/
def nest (ops : List Operation) (body : Attempt α) : Attempt α :=
  ops.foldr (fun op result => result.within op) body

/-- The line that announces an operation. -/
def started (op : Operation) : Entry := ⟨.debug, s!"Starting operation: {op.name}"⟩

/-- The line that an operation ends with. -/
def ended (op : Operation) : Attempt α → Entry
  | .ok _ => ⟨.debug, s!"Completed operation: {op.name}"⟩
  | .error f => ⟨.error, s!"Processing error ({f.kind.name}): {f.text}"⟩

/-- The lines that nested operations write around a body, outermost first. -/
def journal : List Operation → Attempt α → List Entry
  | [], _ => []
  | op :: ops, body => started op :: (journal ops body ++ [ended op (nest ops body)])

end Operation

end GridStream
