import GridStream.Config.Basic
import GridStream.Document.Basic
import GridStream.Document.Json.Reader
import GridStream.Document.Json.Writer
import GridStream.Document.Yaml.Reader
import GridStream.Document.Yaml.Writer
import GridStream.Files

/-!
# Configuration files

The suffix of a file tells its format. An empty document of YAML is no configuration, as is any
that counts as false. What documents of YAML stand for is up to a reader. A document that is no
tree, and a window in a time zone, end loading without an account of what really comes of them
(`Failure.undescribed`).
-/

namespace GridStream

/-- The format of a configuration file. -/
inductive ConfigFormat
  | yaml | json
  deriving DecidableEq, Repr

namespace ConfigFormat

def ofPath? (p : FilePath) : Option ConfigFormat :=
  match Text.lower p.suffix with
  | ".yaml" | ".yml" => some yaml
  | ".json" => some json
  | _ => none

/-- The text with line feeds in place of all other ends of lines. -/
def withLineFeeds (s : String) : String :=
  Text.replaceAll "\r" "\n" (Text.replaceAll "\r\n" "\n" s)

def read (yaml : Reader) (format : ConfigFormat) (p : FilePath) (text : String) : Attempt Value :=
  let text := withLineFeeds text
  match format with
  | .yaml =>
    match yaml text with
    | .ok v => .ok (if v.isTrue then v else .map [])
    | .error .malformed => .error (.configuration s!"Invalid YAML in {p.text}")
    | .error (.raised className) => .error ⟨.foreign className, "", [], none⟩
    | .error .entangled => .error (.undescribed "a document that is no tree")
  | .json =>
    match Json.read? text with
    | some v => .ok v
    | none => .error (.configuration s!"Invalid JSON in {p.text}")

/-- The text of settings in a format. Dates and spans have none in JSON. -/
def write (format : ConfigFormat) (settings : Mapping) : Attempt String :=
  match format with
  | yaml => .ok (Yaml.document settings)
  | json =>
    match Json.document? (.map settings) with
    | some text => .ok text
    | none => .error .wrongType

end ConfigFormat

namespace Configuration

/-- What the configuration file at a path holds. The content of a file whose suffix stands for no
format is not looked at. -/
def readFile (files : FolderTree) (p : FilePath) (yaml : Reader := Yaml.read) : Attempt Value :=
  match files.find? p with
  | none =>
    .error (.configuration s!"Configuration file not found: {p.text}"
      [("config_file", .text p.text)])
  | some .folder => .error (FolderTree.failure "IsADirectoryError" p.text)
  | some entry =>
    match ConfigFormat.ofPath? p, entry with
    | none, _ => .error (.configuration s!"Unsupported config file format: {p.suffix}")
    | some format, .text text => format.read yaml p text
    | some _, _ => .error ⟨.foreign "UnicodeDecodeError", "the file is no text", [], none⟩

/-- The configuration with the given file, if its name is not empty, environment and
overrides. -/
def load (files : FolderTree) (name : String) (environment : List (String × String))
    (overrides : Value) (yaml : Reader := Yaml.read) : Attempt Configuration := do
  let file ← if name = "" then .ok none
    else do .ok (some (← readFile files (FilePath.ofText name) yaml))
  ofLayers? { file, environment, overrides }

/-- Writes the settings to a file. -/
def save (c : Configuration) (files : FolderTree) (name : String) : Attempt FolderTree :=
  let p := FilePath.ofText name
  match ConfigFormat.ofPath? p with
  | none => .error (.configuration s!"Unsupported output format: {p.suffix}")
  | some format => do
    let _ ← files.writable p
    files.write p (← format.write c.settings)

end Configuration

end GridStream
