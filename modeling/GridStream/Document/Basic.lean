import GridStream.Value.Basic

/-!
# Documents

A document is a text that stands for a value. What comes of reading one is a value, or the reason
why there is none. Which texts are documents and what they stand for is up to a reader; a reader may
also give up on a text with a failure of its own, for instance because a number has too many digits
for it or collections stand too deep in each other.
-/

namespace GridStream

/-- Why a text gives no value. -/
inductive Fault
  /-- The text is no document. -/
  | malformed
  /-- Reading ends with a failure of a class of its own. -/
  | raised (className : String)
  /-- The document is no tree: a date or a collection that is written once stands in several places,
  perhaps inside itself. What is done to it in one place shows in the others. -/
  | entangled
  deriving DecidableEq, Repr

/-- The value that there may be, or a reason why there is none. -/
def Fault.unless {α : Type} (f : Fault) : Option α → Except Fault α
  | some a => .ok a
  | none => .error f

/-- A reader of documents. -/
abbrev Reader := String → Except Fault Value

end GridStream
