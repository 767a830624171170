import GridStream.Calendar.Pattern
import GridStream.Files

/-!
# Sources of dated files

A source is a sequence of dated files as seen through one path template: it knows how the file
that starts at a given time is called, and it can open that file. An open file gives the records of
its variables and the extents of their dimensions. There are two kinds of sources. A catalogued
source finds its files by the times at which they start; a stored source finds them by their paths
in a folder tree.
-/

namespace GridStream

/-- An open file. -/
structure DataFile where
  /-- A record of a variable. -/
  read : (name : String) → (index : Int) → Attempt Grid
  /-- The extent of a variable along a dimension. -/
  extent : (name : String) → (dimension : Int) → Attempt Nat

/-- A sequence of dated files. -/
structure Source where
  /-- How the file that starts at a time is called. -/
  describe : Instant → Attempt String
  /-- Opens the file that starts at a time. -/
  openAt : Instant → Attempt DataFile

/-- The path that a template and a date pattern give for the file that starts at `t`. Only texts
can be expanded. -/
def expandedPath (template pattern : Value) (t : Instant) : Attempt String :=
  match template, pattern with
  | .text template, .text pattern => .ok (expandTemplate template pattern t)
  | .text _, v =>
    let type := match v with
      | .null => "None"
      | v => v.typeName
    .error (.wrongType s!"strftime() argument 1 must be str, not {type}")
  | v, _ => .error (.noOperation s!"'{v.typeName}' object has no attribute 'replace'")

/-- The item at a position that counts from the end where it is negative. -/
def positionIn? (size : Nat) (i : Int) : Option Nat :=
  let position := if i < 0 then i + size else i
  if 0 ≤ position ∧ position < size then some position.toNat else none

structure CataloguedFile where
  start : Instant
  dataset : Dataset
  /-- What opening the file fails with, if it does. -/
  openFailure : Option Failure := none
  /-- What reading a record of a variable fails with, where it does. -/
  readFailures : List ((String × Int) × Failure) := []

namespace CataloguedFile

/-- Reads a record of a variable. -/
def read (f : CataloguedFile) (name : String) (index : Int) : Attempt Grid :=
  match f.readFailures.find? (·.1 == (name, index)) with
  | some (_, failure) => .error failure
  | none =>
    match f.dataset.find? name with
    | none => .error { kind := .missingVariable, message := s!"Variable '{name}' not found" }
    | some v =>
      match v.grid.shape with
      | [] => .error (.noPosition "tuple index out of range")
      | count :: _ =>
        match if 0 ≤ index then v.grid.record? index.toNat else none with
        | some g => .ok g
        | none => .error (.noPosition s!"record {index} of {count}")

/-- The extent of a variable along a dimension. -/
def extent (f : CataloguedFile) (name : String) (dimension : Int) : Attempt Nat :=
  match f.dataset.find? name with
  | none => .error (.noKey name)
  | some v =>
    match (positionIn? v.grid.shape.length dimension).bind (v.grid.shape[·]?) with
    | some n => .ok n
    | none => .error (.noPosition "list index out of range")

/-- The open file. -/
def opened (f : CataloguedFile) : DataFile := ⟨f.read, f.extent⟩

end CataloguedFile

/-- The source of files that are found by the times at which they start. -/
def Source.catalogued (template pattern : Value) (files : List CataloguedFile) : Source where
  describe := expandedPath template pattern
  openAt t :=
    match files.find? (·.start == t) with
    | none => do
      .error { kind := .gridFile
               message := s!"Output file not found: {← expandedPath template pattern t}" }
    | some f =>
      match f.openFailure with
      | some failure => .error failure
      | none => .ok f.opened

namespace Dataset

/-- The failure of a file that is present. -/
def failure (kind : FailureKind) (source message : String) (name : String)
    (more : Context := []) : Failure :=
  { kind, message, context := [("file", .text source), ("variable", .text name)] ++ more }

/-- Reads a record of a variable. A negative position counts from the end. -/
def read (d : Dataset) (source name : String) (index : Int) : Attempt Grid :=
  match d.find? name with
  | none =>
    .error (failure .missingVariable source
      s!"Variable '{name}' not found in {source}. Available: {Value.textList d.available}" name)
  | some v =>
    match v.grid.shape with
    | [] =>
      .error (failure .gridFile source
        s!"Variable '{name}' in {source} has no record dimension" name)
    | count :: _ =>
      if count ≤ index then
        .error (failure .gridFile source
          (s!"Variable '{name}' in {source} has {count} records, " ++
            s!"record {index} requested") name [("record_index", .int index)])
      else
        match (positionIn? count index).bind v.grid.record? with
        | some g => .ok g
        | none =>
          .error (.noPosition s!"index {index} is out of bounds for axis 0 with size {count}")

/-- The extent of a variable along a dimension. -/
def extent (d : Dataset) (source name : String) (dimension : Int) : Attempt Nat :=
  match d.find? name with
  | none =>
    .error (failure .missingVariable source s!"Variable '{name}' not found in {source}" name)
  | some v =>
    match if 0 ≤ dimension then v.grid.shape[dimension.toNat]? else none with
    | some n => .ok n
    | none =>
      .error (failure .gridFile source
        (s!"Variable '{name}' in {source} has {v.grid.shape.length} dimensions, " ++
          s!"dimension {dimension} requested") name)

/-- The open file of a data set. -/
def opened (d : Dataset) (source : String) : DataFile := ⟨d.read source, d.extent source⟩

end Dataset

/-- The source of files that are found by their paths. -/
def Source.stored (template pattern : Value) (files : FolderTree) : Source where
  describe := expandedPath template pattern
  openAt t := do
    let path ← expandedPath template pattern t
    let place := FilePath.ofText path
    let context : Context := [("file", .text path), ("file_time", .text t.iso)]
    match if path = "" then none else files.find? place with
    | none =>
      .error { kind := .gridFile, message := s!"Output file not found: {path}", context }
    | some (.data d) =>
      .ok (d.opened place.collapsed.text)
    | some _ => .error { kind := .gridFile, message := s!"Could not open {path}", context }

end GridStream
