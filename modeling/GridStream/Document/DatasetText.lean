import GridStream.Document.Json.Reader
import GridStream.Files

/-!
# Data sets as texts

A data set can be written as a JSON document: a mapping from the names of variables to grids, each
of them with its `shape` and, in row-major order, its `data`.
-/

namespace GridStream

def itemsOf? : Value → Option (List Value)
  | .list items => some items
  | _ => none

/-- The extent that a value stands for. -/
def extentOf? : Value → Option Nat
  | .int n => if 0 ≤ n then some n.toNat else none
  | _ => none

/-- The cell that a value stands for. -/
def cellOf? : Value → Option Float
  | .int n => Decimal.ofInt? n
  | .float x => some x
  | _ => none

/-- The grid that a value stands for. -/
def Grid.ofValue? (v : Value) : Option Grid := do
  let entries ← v.map?
  let shape ← (Mapping.field? entries "shape").bind itemsOf?
  let cells ← (Mapping.field? entries "data").bind itemsOf?
  Grid.ofCells? (← shape.mapM extentOf?) (← cells.mapM cellOf?).toArray

/-- The data set that a text stands for. -/
def Dataset.ofText? (s : String) : Option Dataset := do
  let entries ← (← Json.read? s).map?
  let content ← entries.mapM fun (name, v) => do
    some { name := ← name.text?, grid := ← Grid.ofValue? v }
  some { content }

end GridStream
