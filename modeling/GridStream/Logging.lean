import GridStream.Files
import GridStream.Journal

/-!
# Logging

A log line carries the name of its logger, a level and a message; the time in front of it is left
out. Lines at or above the logger's level go to each of its handlers: the console, which has a
level of its own, and a file, which takes every line. Without any handler, the messages of warnings
and of what is above them go to the error stream.
-/

namespace GridStream

/-- A destination of log lines. -/
inductive Handler
  | console (level : Nat)
  | file (place : List String)
  deriving DecidableEq, Repr

/-- The least level that a handler takes. -/
def Handler.level : Handler → Nat
  | console level => level
  | file _ => Level.debug.number

/-- The name of a handler's kind. -/
def Handler.kind : Handler → String
  | console _ => "StreamHandler"
  | file _ => "FileHandler"

/-- The number that a level name of a setup call stands for. Case does not matter. -/
def levelNumber? (name : String) : Option Nat :=
  match Text.upper name with
  | "CRITICAL" | "FATAL" => some 50
  | "ERROR" => some 40
  | "WARNING" | "WARN" => some 30
  | "INFO" => some 20
  | "DEBUG" => some 10
  | "NOTSET" => some 0
  | _ => none

/-- Why a name stands for no level. Two names stand for other things than numbers. -/
def levelFailure (name : String) : Failure :=
  match Text.upper name with
  | "BASIC_FORMAT" => .badValue "Unknown level: '%(levelname)s:%(name)s:%(message)s'"
  | "_STYLES" => .wrongType "Level not an integer or a valid string"
  | capitals => .noOperation s!"there is no level {capitals}"

/-- A log with its destinations and what has been written so far. -/
structure Log where
  level : Nat := 0
  handlers : List Handler := []
  console : List String := []
  files : FolderTree := {}
  /-- The messages that were shown on the error stream, since there was no destination. -/
  stray : List String := []

namespace Log

/-- The name of the main logger. -/
def mainName : String := "wrfcmaq_preprocessor"

/-- The name of the logger of progress messages, which passes its lines on to the main one. -/
def progressName : String := "wrfcmaq_preprocessor.progress"

/-- The least level of a line that is written. A logger without a level takes warnings. -/
def threshold (l : Log) : Nat := if l.level = 0 then Level.warning.number else l.level

/-- The file that a setup call asks for, if it does. -/
def filePath? (file : Value) : Attempt (Option FilePath) :=
  if !file.isTrue then .ok none
  else
    match file with
    | .text s => .ok (some (FilePath.ofText s))
    | v => .error (.wrongType s!"{v.inner} is no path")

/-- Opens a log file for appending, and makes the folders that it needs. -/
def openFile (files : FolderTree) (p : FilePath) : FolderTree × Attempt (List String) :=
  if p.parent.hasNull then (files, .error FolderTree.nullFailure)
  else
    match files.makeFolders p.parent with
    | (files, some f) => (files, .error f)
    | (files, none) =>
      if p.hasNull then (files, .error FolderTree.nullFailure)
      else
        match files.entry? p.place with
        | some .folder => (files, .error (FolderTree.failure "IsADirectoryError" p.text))
        | some _ => (files, .ok p.place)
        | none => (files.set p.place (.text ""), .ok p.place)

/-- Sets the level and replaces all handlers: a console if asked for, then a file if asked for.
An unknown level changes nothing. A file that cannot be opened leaves the console alone. -/
def setup (l : Log) (level : Value) (file : Value) (console : Bool) : Log × Option Failure :=
  match level with
  | .text name =>
    match levelNumber? name with
    | none => (l, some (levelFailure name))
    | some number =>
      let handlers := if console then [Handler.console number] else []
      let l := { l with level := number, handlers }
      match filePath? file with
      | .error f => (l, some f)
      | .ok none => (l, none)
      | .ok (some p) =>
        match openFile l.files p with
        | (files, .error f) => ({ l with files }, some f)
        | (files, .ok place) => ({ l with files, handlers := handlers ++ [.file place] }, none)
  | v => (l, some (.noOperation s!"{v.inner} is no name of a level"))

/-- Writes a line to one handler. -/
def emit (level : Nat) (line : String) (l : Log) (h : Handler) : Log :=
  if level < h.level then l
  else
    match h with
    | .console _ => { l with console := l.console ++ [line] }
    | .file place => { l with files := l.files.appendLine place line }

/-- Shows a message that has no destination. Only warnings and what is above are shown. -/
def showStray (l : Log) (entry : Entry) : Log :=
  if entry.level.number < Level.warning.number then l
  else { l with stray := l.stray ++ [entry.message] }

/-- Logs a message under a logger's name. -/
def write (l : Log) (name : String) (entry : Entry) : Log :=
  if entry.level.number < l.threshold then l
  else if l.handlers = [] then l.showStray entry
  else
    let line := s!"{name} - {entry.level.name} - {entry.message}"
    l.handlers.foldl (emit entry.level.number line) l

end Log

end GridStream
