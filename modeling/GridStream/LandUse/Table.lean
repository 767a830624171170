import GridStream.Grid.Basic

/-!
# Lookup tables for category codes

A table has an entry for each of the codes 1, 2, … up to its size. A code outside the table is an
error and is never replaced by a default, since it means that the data do not belong to the table.
-/

namespace GridStream

/-- An entry of a lookup table. -/
inductive TableEntry
  /-- A named category with its number. -/
  | category (name : String) (number : Nat)
  | bool (b : Bool)
  | int (n : Int)
  | float (x : Float)

/-- The number of an entry as a cell of a grid, `none` if it is beyond the doubles. Truth values
count as 0 and 1. -/
def TableEntry.cell? : TableEntry → Option Float
  | category _ number => Decimal.ofInt? number
  | bool b => some (if b then 1.0 else 0.0)
  | int n => Decimal.ofInt? n
  | float x => some x

/-- A table of entries for the codes from 1 on. -/
structure LookupTable where
  name : String
  entries : Array TableEntry
  nonempty : 0 < entries.size

namespace LookupTable

/-- The table with the given entries, of which there must be at least one. -/
def make? (name : String) (entries : Array TableEntry) : Attempt LookupTable :=
  if h : 0 < entries.size then .ok ⟨name, entries, h⟩
  else .error (.configuration s!"Lookup table '{name}' is empty")

/-- The number of entries. -/
def size (t : LookupTable) : Nat := t.entries.size

/-- The entry of a code, if the code is within the table. -/
def entry? (t : LookupTable) (code : Int) : Option TableEntry :=
  if 1 ≤ code then t.entries[(code - 1).toNat]? else none

/-- The failure of looking up a code outside the table. -/
def outside (t : LookupTable) (code : Value) : Failure :=
  { kind := .lookupRange
    message := s!"Code {code.toText} is outside lookup table '{t.name}' (1-{t.size})"
    context := [("table", .text t.name), ("code", code)] }

/-- The entry of a code. A code that is within the table but is no integer has no entry. -/
def lookup (t : LookupTable) (code : Value) : Attempt TableEntry :=
  match code.number? with
  | some (.int n) =>
    match t.entry? n with
    | some entry => .ok entry
    | none => .error (t.outside code)
  | some (.float x) =>
    if 1.0 ≤ x ∧ x ≤ t.size.toFloat then
      .error (.wrongType s!"{code.inner} is no integer")
    else .error (t.outside code)
  | none =>
    .error (.wrongType s!"{code.inner} is no number")

/-- The code nearest to a cell. Cells that are not finite, or whose nearest integer does not fit
into 64 bits, count as the least integer of 64 bits. -/
def nearestCode (x : Float) : Int :=
  match Decimal.nearestInt? x with
  | some n => if -Int.pow 2 63 ≤ n ∧ n < Int.pow 2 63 then n else -Int.pow 2 63
  | none => -Int.pow 2 63

/-- Whether a code has an entry. -/
def covers (t : LookupTable) (code : Int) : Bool := 1 ≤ code && code ≤ t.size

/-- Replaces every code of a grid by its entry. Cells that are not finite are reported before
codes outside the table, and of either the first in row-major order. -/
def remap (t : LookupTable) (time : Option Instant) (g : Grid) : Attempt Grid :=
  let whenText := match time with
    | some time => s!" at {time.iso}"
    | none => ""
  let context : Context := [("table", .text t.name),
    ("timestamp", match time with
      | some time => .text time.iso
      | none => .null)]
  match g.cells.findIdx? (!Decimal.isFinite ·) with
  | some i =>
    let cell := cellAt g.shape i
    .error {
      kind := .lookupRange
      message :=
        s!"Non-finite category code at cell {extentsText cell}{whenText} in table '{t.name}'"
      context := context.put "cell" (extentsValue cell) }
  | none =>
    let codes := g.cells.map nearestCode
    match codes.findIdx? (!t.covers ·) with
    | some i =>
      let cell := cellAt g.shape i
      let code := codes.getD i 0
      let invalid := (codes.filter (!t.covers ·)).size
      .error {
        kind := .lookupRange
        message :=
          s!"Category code {code} at cell {extentsText cell}{whenText} is outside lookup table " ++
            s!"'{t.name}' (valid codes 1-{t.size}, {invalid} invalid cells)"
        context := (context.put "code" (.int code)).put "cell" (extentsValue cell) }
    | none =>
      match t.entries.mapM TableEntry.cell? with
      | some entries =>
        .ok (g.map fun x => entries.getD (nearestCode x - 1).toNat 0.0)
      | none => .error (.outOfRange "int too large to convert to float")

end LookupTable

end GridStream
