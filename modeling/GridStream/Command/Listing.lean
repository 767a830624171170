import GridStream.Command.Request

/-!
# The list of quantities

Every quantity is listed on two lines: name, units and source variables on the first, the
description on the second.
-/

namespace GridStream.Command

/-- The width of the column of names. -/
def nameWidth : Nat := 20

/-- A name at the left of its column. Truth values are shown as numbers there, and the column's
layout is all that is shown of a date. -/
def nameColumn (name : Value) : Attempt String :=
  match name with
  | .text s => .ok (Text.padRight nameWidth s)
  | .bool b => .ok (Text.padRight nameWidth (if b then "1" else "0"))
  | .int _ | .float _ => .ok (Text.padRight nameWidth name.toText)
  | .date _ | .instant _ | .zoned .. => .ok s!"<{nameWidth}"
  | v => .error (.wrongType s!"{v.inner} cannot be laid out in a column")

def quantityLines (groups : SpeciesGroups) (name : Value) : Attempt (List String) := do
  let d ← Catalog.describe groups name
  let column ← nameColumn name
  let sources := String.intercalate ", " d.sources
  let blank := Text.padRight nameWidth ""
  .ok
    [s!"  {column} [{d.units}]  <- {sources}",
      s!"  {blank} {d.description}"]

/-- The lines of several quantities, up to the first that cannot be listed. -/
def listFrom (groups : SpeciesGroups) : List Value → List String × Except Failure Nat
  | [] => ([], .ok 0)
  | name :: names =>
    match quantityLines groups name with
    | .error f => ([], .error f)
    | .ok lines =>
      let (others, ending) := listFrom groups names
      (lines ++ others, ending)

/-- The lines above the list. -/
def listHead : List String :=
  ["WRF-CMAQ Preprocessor Quantities:", String.ofList (List.replicate 50 '=')]

/-- Lists all quantities of a configuration. -/
def listConfigured (files : FolderTree) (c : Configuration) : Outcome :=
  match c.groups with
  | .error f => .ofConfigFailure files f
  | .ok groups =>
    let (lines, ending) := listFrom groups (Catalog.allNames groups)
    { ending, printed := listHead ++ lines, files }

/-- Lists all quantities of the configuration that is asked for. -/
def listQuantities (s : Surroundings) (config : Value) : Outcome :=
  match s.load config .null with
  | .error f => .ofConfigFailure s.files f
  | .ok c => listConfigured s.files c

end GridStream.Command
