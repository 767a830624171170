import GridStream.Command.Run
import GridStream.Document.DatasetText

/-!
# The program

Gathers the environment and the files that a command line needs, runs it, prints what it has to
say and adds what it logs to the log file.

## What is left out

* What a clock shows: the moment of a line in a log, and how long an operation took, in the context
  of a failure and in the line that ends the operation (`Operation.items`, `Journal`).
* Halves of surrogate pairs. A text consists of characters; where a document spells such a half, the
  replacement character stands in its place (`Json.charOf`, `Yaml.charOf`).
* Limits on how many digits an integer may have and on how deep collections may stand in each other.
  A reader that has them fails with a class of its own (`Fault.raised`).
* What becomes of a document that is no tree and of a window in a time zone. Loading them ends with
  `Failure.undescribed`, and the laws of loading say so (`Configuration.Beyond`).
* What a file system refuses by itself: access without a permission, and names that are too long.
-/

open GridStream

/-- The text of a file, if it can be read. -/
def textOfFile? (name : String) : IO (Option String) := do
  try
    return some (← IO.FS.readFile name)
  catch _ =>
    return none

/-- The part of the environment that sets something. -/
def relevantEnvironment : IO (List (String × String)) := do
  let mut found := []
  for (name, _) in Config.environmentNames do
    if let some s ← IO.getEnv name then
      found := (name, s) :: found
  return found.reverse

/-- Adds a file of the disk to a folder tree. -/
def withFile (files : FolderTree) (name : String) (entryOf : String → FileEntry) :
    IO FolderTree := do
  match ← textOfFile? name with
  | some s => return files.add (FilePath.ofText name) (entryOf s)
  | none => return files

/-- The entry of a data file. A file that holds no data set is a text. -/
def dataEntry (s : String) : FileEntry :=
  match Dataset.ofText? s with
  | some d => .data d
  | none => .text s

/-- Gathers what a request needs. -/
def gather (r : Command.Request) : IO Command.Surroundings := do
  let environment ← relevantEnvironment
  let config := r.configFile
  let mut files : FolderTree := {}
  if config ≠ "" then
    files ← withFile files config .text
  for name in r.dataFiles { files, environment } do
    files ← withFile files name dataEntry
  return { files, environment }

/-- Adds the texts that a command has written to their files. -/
def writeBack (before after : FolderTree) : IO Unit := do
  for (place, entry) in after.entries do
    match entry, before.entry? place with
    | .text s, none =>
      let path := String.intercalate "/" place
      if place.length > 1 then
        IO.FS.createDirAll (String.intercalate "/" place.dropLast)
      let handle ← IO.FS.Handle.mk path .append
      handle.putStr s
    | _, _ => pure ()

/-- Runs the command line. A failure that nothing takes care of ends with 1. -/
def main (args : List String) : IO UInt32 := do
  let surroundings ← match Command.request args with
    | .ok r => gather r
    | _ => pure {}
  let outcome := Command.run surroundings args
  for line in outcome.printed do
    IO.println line
  for line in outcome.complaints do
    IO.eprintln line
  writeBack surroundings.files outcome.files
  match outcome.ending with
  | .ok code => return code.toUInt32
  | .error f =>
    IO.eprintln s!"{f.kind.name}: {f.text}"
    return 1
