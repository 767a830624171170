import GridStream.Grid.Basic
import GridStream.Text.Character

/-!
# Files

Paths are normalized: empty parts and parts that stand for the folder itself are left out, parts
that stand for the folder above are kept. A folder tree holds the files below a working
directory, each of them a text or a data set.

A data set holds grids under the names of variables. The first dimension of a variable counts its
records. A variable that describes a dimension can be read like any other, but is not listed among
those that are available.
-/

namespace GridStream

/-! ## Data sets -/

/-- A variable of a data set. -/
structure StoredVariable where
  name : String
  grid : Grid
  isCoordinate : Bool := false

/-- The variables of a file. -/
structure Dataset where
  content : List StoredVariable := []

namespace Dataset

def find? (d : Dataset) (name : String) : Option StoredVariable :=
  d.content.find? (·.name == name)

/-- The names of the variables that are listed, sorted. -/
def available (d : Dataset) : List String :=
  ((d.content.filter (!·.isCoordinate)).map (·.name)).mergeSort fun a b => a ≤ b

end Dataset

/-! ## Paths -/

/-- A normalized path. The root is empty for a path from the working directory on. Exactly two
slashes at the beginning are a root of their own, any other number of slashes is one slash. -/
structure FilePath where
  root : String
  parts : List String
  deriving DecidableEq, Repr

namespace FilePath

/-- The path that a text names. -/
def ofText (s : String) : FilePath :=
  { root :=
      if !s.startsWith "/" then ""
      else if s.startsWith "//" && !s.startsWith "///" then "//"
      else "/"
    parts := (Text.splitAt '/' s).filter fun part => part ≠ "" ∧ part ≠ "." }

def text (p : FilePath) : String :=
  let joined := String.intercalate "/" p.parts
  if p.root = "" ∧ p.parts = [] then "." else p.root ++ joined

/-- The last part of a path. -/
def name (p : FilePath) : String := p.parts.getLast?.getD ""

/-- The name of a file from its last point on, unless the point begins or ends the name. -/
def suffix (p : FilePath) : String :=
  let parts := Text.splitAt '.' p.name
  match parts.getLast? with
  | none => ""
  | some last =>
    let stem := parts.dropLast
    if last = "" ∨ stem = [] ∨ stem = [""] then "" else "." ++ last

/-- The place where the way of a path begins. -/
def origin (p : FilePath) : List String := if p.root = "" then [] else ["/"]

/-- The folder that a path lies in. -/
def parent (p : FilePath) : FilePath := { p with parts := p.parts.dropLast }

/-- Whether a place is the root, the working directory or a folder above that. -/
def isTop (place : List String) : Bool := place = ["/"] || place.all (· = "..")

/-- The folder above a place. Nothing is above the root, and a folder above the working directory
is known by the way up to it. -/
def above (place : List String) : List String :=
  if place = ["/"] then place
  else if place.all (· = "..") then place ++ [".."]
  else place.dropLast

/-- Where a part of a path leads to from a place. -/
def next (place : List String) (part : String) : List String :=
  if part = ".." then above place else place ++ [part]

/-- The place that a path names, whatever is there. -/
def place (p : FilePath) : List String := p.parts.foldl next p.origin

/-- The shortest path to the place that a path names. -/
def collapsed (p : FilePath) : FilePath := { p with parts := p.place.drop p.origin.length }

/-- Whether a null character is in a path, which no file can be opened with. -/
def hasNull (p : FilePath) : Bool := p.parts.any fun part => '\x00' ∈ part.toList

end FilePath

/-! ## Folders -/

/-- What a path of a folder tree leads to. -/
inductive FileEntry
  | folder
  | text (text : String)
  /-- A data set. Its bytes are no text, from the first of them on. -/
  | data (dataset : Dataset)

/-- The files and folders below a working directory, by the parts of their paths. The paths of
absolute files begin with a slash. -/
structure FolderTree where
  entries : List (List String × FileEntry) := []

namespace FolderTree

/-- What stands at a place. -/
def entry? (t : FolderTree) (place : List String) : Option FileEntry :=
  if FilePath.isTop place then some .folder
  else (t.entries.find? (·.1 == place)).map (·.2)

/-- Sets what stands at a place. -/
def set (t : FolderTree) (place : List String) (entry : FileEntry) : FolderTree :=
  ⟨replace t.entries⟩
where
  /-- Replaces the entry of the place, or adds one at the end. -/
  replace : List (List String × FileEntry) → List (List String × FileEntry)
    | [] => [(place, entry)]
    | e :: es => if e.1 = place then (place, entry) :: es else e :: replace es

/-- Follows parts from a place on. Every part but the last must lead to a folder. -/
def follow (t : FolderTree) : (place : List String) → (parts : List String) → Option (List String)
  | place, [] => some place
  | place, part :: parts =>
    match t.entry? place with
    | some .folder => t.follow (FilePath.next place part) parts
    | _ => none

/-- The place that a path leads to, `none` if a part before the last leads to no folder. -/
def place? (t : FolderTree) (p : FilePath) : Option (List String) :=
  t.follow p.origin p.parts

/-- Adds a file with the folders that it needs, whatever stands in the way. -/
def add (t : FolderTree) (p : FilePath) (entry : FileEntry) : FolderTree :=
  let folders := (List.range p.place.length).map fun n => p.place.take n
  (folders.foldl (fun t f => if t.entry? f |>.isSome then t else t.set f .folder) t).set p.place
    entry

/-- What a path leads to. -/
def find? (t : FolderTree) (p : FilePath) : Option FileEntry := (t.place? p).bind t.entry?

/-- A failure of the file system. -/
def failure (className message : String) : Failure := ⟨.foreign className, message, [], none⟩

/-- The failure of a path with a null character. -/
def nullFailure : Failure := .badValue "embedded null byte"

/-- Makes the folders that are missing on the way of a path, its end included. What was made before
a failure stays. -/
def makeFolders (t : FolderTree) (p : FilePath) : FolderTree × Option Failure :=
  go t p.origin false p.parts
where
  /-- Makes the folders from a place on. Where a folder was missing before, the way is made part by
  part, so that a file in the way is taken for the folder to be made. -/
  go (t : FolderTree) (place : List String) (made : Bool) :
      List String → FolderTree × Option Failure
    | [] => (t, none)
    | part :: parts =>
      let next := FilePath.next place part
      match t.entry? next with
      | some .folder => go t next made parts
      | some _ =>
        (t, some (failure (if parts = [] ∨ made then "FileExistsError" else "NotADirectoryError")
          (String.intercalate "/" next)))
      | none => go (t.set next .folder) next true parts

/-- Checks that a file can be written at a path, and gives its place. -/
def writable (t : FolderTree) (p : FilePath) : Attempt (List String) :=
  if p.hasNull then .error nullFailure
  else
    match t.place? p with
    | none => .error (failure "FileNotFoundError" p.text)
    | some place =>
      match t.entry? place.dropLast, t.entry? place with
      | _, some .folder => .error (failure "IsADirectoryError" p.text)
      | some .folder, _ => .ok place
      | some _, _ => .error (failure "NotADirectoryError" p.text)
      | none, _ => .error (failure "FileNotFoundError" p.text)

def write (t : FolderTree) (p : FilePath) (text : String) : Attempt FolderTree := do
  .ok (t.set (← t.writable p) (.text text))

/-- The text of the file at a place, empty if there is none. -/
def textAt (t : FolderTree) (place : List String) : String :=
  match t.entry? place with
  | some (.text text) => text
  | _ => ""

/-- Adds a line to the file at a place. -/
def appendLine (t : FolderTree) (place : List String) (line : String) : FolderTree :=
  t.set place (.text (t.textAt place ++ line ++ "\n"))

end FolderTree

end GridStream
