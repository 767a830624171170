import GridStream.Proofs.Config.Clash
import GridStream.Proofs.Config.Escape
import GridStream.Proofs.Document.Regular
import GridStream.Proofs.Files

/-!
# Loading a configuration

Loading fails with something else than what is wrong with a configuration in a few cases: the file
is no text or the reader of its format fails on it, its document is no mapping, the overrides clash
with what lies below them, or the checks are not made for what the layers give together
(`Configuration.escapes_load`). All this is so for every reader of YAML that gives regular values.
Of a document that is no tree, and of a window in a time zone, there is no account at all
(`Configuration.Beyond`).
-/

namespace GridStream

namespace ConfigFormat

variable {yaml : Reader} {format : ConfigFormat} {p : FilePath} {text : String}

theorem escapes_read : (format.read yaml p text).Escapes ↔ format = .yaml ∧
    ((∃ className, yaml (withLineFeeds text) = .error (.raised className)) ∨
      yaml (withLineFeeds text) = .error .entangled) := by
  unfold read
  cases format with
  | yaml =>
    dsimp only
    split
    · next h => simp [h]
    · next h => simp [h, Failure.configuration]
    · next h => simp [h]
    · next h => simp [h, Failure.undescribed]
  | json =>
    dsimp only
    split <;> simp [Failure.configuration]

theorem read_json {v : Value} (hv : Json.read? (withLineFeeds text) = some v) :
    ConfigFormat.json.read yaml p text = .ok v := by
  unfold read
  dsimp only
  rw [hv]

end ConfigFormat

namespace Configuration
open Config Entries

variable {yaml : Reader} {files : FolderTree} {p : FilePath} {name : String} {v : Value}
  {file : Option Value} {environment : List (String × String)} {cli settings lower : Mapping}

/-- A file whose suffix stands for YAML and whose text gives no value. -/
structure HasFault (files : FolderTree) (p : FilePath) (yaml : Reader) (text : String)
    (fault : Fault) : Prop where
  found : files.find? p = some (.text text)
  format : ConfigFormat.ofPath? p = some .yaml
  read : yaml (ConfigFormat.withLineFeeds text) = .error fault

/-- A file that is there, but cannot be read as a document. -/
inductive Unreadable (files : FolderTree) (p : FilePath) (yaml : Reader) : Prop
  | folder (found : files.find? p = some .folder)
  | data {dataset : Dataset} {format : ConfigFormat} (found : files.find? p = some (.data dataset))
    (format : ConfigFormat.ofPath? p = some format)
  /-- The reader fails: for instance on a date or a number that does not exist. -/
  | raised {text className : String} (fault : HasFault files p yaml text (.raised className))

/-- A file with a document that is no tree. -/
def Entangled (files : FolderTree) (p : FilePath) (yaml : Reader) : Prop :=
  ∃ text, HasFault files p yaml text .entangled

theorem escapes_readFile : (readFile files p yaml).Escapes ↔
    Unreadable files p yaml ∨ Entangled files p yaml := by
  unfold readFile
  constructor
  · intro h
    cases hf : files.find? p with
    | none => simp [hf, Failure.configuration] at h
    | some entry =>
      cases hp : ConfigFormat.ofPath? p with
      | none =>
        cases entry with
        | folder => exact .inl (.folder hf)
        | _ => simp [hf, hp, Failure.configuration] at h
      | some format =>
        cases entry with
        | folder => exact .inl (.folder hf)
        | data dataset => exact .inl (.data hf hp)
        | text text =>
          rw [hf, hp] at h
          obtain ⟨rfl, ⟨className, hread⟩ | hread⟩ := ConfigFormat.escapes_read.1 h
          · exact .inl (.raised ⟨hf, hp, hread⟩)
          · exact .inr ⟨_, hf, hp, hread⟩
  · rintro (h | ⟨text, hf, hp, hread⟩)
    · cases h with
      | folder hf => simp [hf, FolderTree.failure]
      | data hf hp => simp [hf, hp]
      | raised fault =>
        simp only [fault.found, fault.format]
        exact ConfigFormat.escapes_read.2 ⟨rfl, .inl ⟨_, fault.read⟩⟩
    · simp only [hf, hp]
      exact ConfigFormat.escapes_read.2 ⟨rfl, .inr hread⟩

theorem readFile_of_entangled (h : Entangled files p yaml) :
    readFile files p yaml = .error (.undescribed "a document that is no tree") := by
  obtain ⟨text, hf, hp, hread⟩ := h
  simp only [readFile, hf, hp, ConfigFormat.read, hread]

theorem regular_readFile (hyaml : yaml.Regular) (h : readFile files p yaml = .ok v) :
    v.Regular := by
  unfold readFile at h
  split at h
  · cases h
  · cases h
  · split at h
    · cases h
    · exact ConfigFormat.regular_read hyaml h
    · cases h

theorem readFile_json {text : String} (hf : files.find? p = some (.text text))
    (hp : ConfigFormat.ofPath? p = some .json)
    (hv : Json.read? (ConfigFormat.withLineFeeds text) = some v) :
    readFile files p yaml = .ok v := by
  unfold readFile
  rw [hf]
  dsimp only
  rw [hp]
  exact ConfigFormat.read_json hv

/-- The document of the file with the given name, if the name is not empty. -/
def document (files : FolderTree) (name : String) (yaml : Reader := Yaml.read) :
    Attempt (Option Value) :=
  if name = "" then .ok none else do .ok (some (← readFile files (FilePath.ofText name) yaml))

theorem load_eq {overrides : Value} : load files name environment overrides yaml =
    (do ofLayers? ⟨← document files name yaml, environment, overrides⟩) := by
  unfold load document
  split
  · rfl
  · cases readFile files (FilePath.ofText name) yaml <;> rfl

theorem escapes_document : (document files name yaml).Escapes ↔ name ≠ "" ∧
    (Unreadable files (FilePath.ofText name) yaml ∨
      Entangled files (FilePath.ofText name) yaml) := by
  unfold document
  split
  · next h => simp [h]
  · next h => simp [h, Attempt.escapes_bind, escapes_readFile]

theorem regular_document (hyaml : yaml.Regular) (h : document files name yaml = .ok file) :
    ∀ v, file = some v → v.Regular := by
  unfold document at h
  split at h
  · cases h
    intro w hw
    cases hw
  · obtain ⟨v, hv, h⟩ := Attempt.bind_eq_ok.1 h
    cases h
    exact fun w hw => Option.some.inj hw ▸ regular_readFile hyaml hv

/-- The settings of the defaults and a file. -/
def fileSettings : Option Value → Attempt Mapping
  | some v => mergeLayer defaults v
  | none => .ok defaults

theorem merged_null : Layers.merged ⟨file, environment, .null⟩ =
    (do merge (← fileSettings file) (environmentLayer environment)) := by
  have hnull : Value.null.isTrue = false := rfl
  have hpure : ∀ x : Attempt Mapping, (do let m ← x; .ok m) = x := fun x => by cases x <;> rfl
  unfold Layers.merged fileSettings
  cases file with
  | none => simp [hnull, hpure]
  | some v => simp [hnull, hpure]

theorem merged_eq : Layers.merged ⟨file, environment, .map cli⟩ =
    (do merge (← Layers.merged ⟨file, environment, .null⟩) cli) := by
  have hcli : ∀ lower, (if (Value.map cli).isTrue then mergeLayer lower (.map cli) else .ok lower) =
      merge lower cli := fun lower => by
    cases cli with
    | nil =>
      rw [merge]
      rfl
    | cons => rfl
  rw [merged_null]
  unfold Layers.merged fileSettings
  simp only [hcli]
  cases file with
  | none => cases merge defaults (environmentLayer environment) <;> rfl
  | some v =>
    dsimp only
    cases mergeLayer defaults v with
    | error => rfl
    | ok m => cases merge m (environmentLayer environment) <;> rfl

/-- The layers below the command line give regular settings, unless the file holds no mapping. -/
inductive Lower (file : Option Value) (environment : List (String × String)) : Prop
  | ok {lower : Mapping} (file_map : ∀ v, file = some v → v.map? ≠ none)
    (merged : Layers.merged ⟨file, environment, .null⟩ = .ok lower) (regular : lower.Regular)
  | error {v : Value} (file_eq : file = some v) (no_map : v.map? = none)
    (merged : Layers.merged ⟨file, environment, .null⟩ = .error (noMapping v))

theorem lower_layers (hfile : ∀ v, file = some v → v.Regular) : Lower file environment := by
  have henvironment : ∀ base : Mapping, base.Regular → ∃ lower : Mapping,
      merge base (environmentLayer environment) = .ok lower ∧ lower.Regular := fun _ hbase =>
    exists_merge hbase regular_environmentLayer not_clashes_environmentLayer
  cases file with
  | none =>
    obtain ⟨lower, hlower, hregular⟩ := henvironment defaults regular_defaults
    exact .ok (fun v hv => by cases hv) (merged_null.trans hlower) hregular
  | some v =>
    cases hv : v.map? with
    | none =>
      have hmerge : mergeLayer defaults v = .error (noMapping v) := by
        cases v <;> first | rfl | cases hv
      refine .error rfl hv ?_
      rw [merged_null, fileSettings, hmerge]
      rfl
    | some entries =>
      obtain rfl := Value.map?_eq_some.1 hv
      obtain ⟨m, hm, hregular⟩ := exists_merge regular_defaults (hfile _ rfl) not_clashes_defaults
      obtain ⟨lower, hlower, hregular⟩ := henvironment m hregular
      refine .ok (fun w hw => ?_) ?_ hregular
      · cases hw
        simp [hv]
      · rw [merged_null, fileSettings, mergeLayer, hm]
        exact hlower

/-- Laying the command line over the other layers fails if they clash, or if the file holds no
mapping. What all layers give together is regular. -/
theorem merged_outcome (environment : List (String × String))
    (hfile : ∀ v, file = some v → v.Regular) (hcli : cli.Regular) :
    Outcome ((∃ v, file = some v ∧ v.map? = none) ∨
        ∃ lower, Layers.merged ⟨file, environment, .null⟩ = .ok lower ∧ Clashes lower cli)
      Mapping.Regular (Layers.merged ⟨file, environment, .map cli⟩) := by
  rw [merged_eq]
  have hlower : Lower file environment := lower_layers hfile
  cases hlower with
  | error file_eq no_map merged =>
    rw [merged]
    exact .error (.inl ⟨_, file_eq, no_map⟩)
  | @ok lower file_map merged regular =>
    rw [merged]
    have h := merge_outcome regular hcli
    change Outcome _ _ (merge lower cli)
    generalize merge lower cli = a at h
    cases h with
    | ok regular no_clash =>
      refine .ok regular ?_
      rintro (⟨v, hv, hno⟩ | ⟨lower', hlower, hclash⟩)
      · exact file_map v hv hno
      · cases hlower
        exact no_clash hclash
    | error clash => exact .error (.inr ⟨lower, rfl, clash⟩)

theorem escapes_ofSettings? : (ofSettings? settings).Escapes ↔ (check settings).Escapes := by
  unfold ofSettings?
  split
  · next h => simp [h]
  · next h => simp [h]

theorem document_eq_ok : document files name yaml = .ok (some v) ↔
    name ≠ "" ∧ readFile files (FilePath.ofText name) yaml = .ok v := by
  unfold document
  split
  · next h => simp [h]
  · next h => simp [h, Attempt.bind_eq_ok]

section
variable (files : FolderTree) (name : String) (environment : List (String × String))
  (cli : Mapping) (yaml : Reader)

/-- What loading a configuration gets stuck on. -/
inductive Stuck : Prop
  /-- The file cannot be read. -/
  | unreadable (named : name ≠ "") (unreadable : Unreadable files (FilePath.ofText name) yaml)
  /-- The document of the file is no mapping. -/
  | document {v : Value} (named : name ≠ "")
    (read : readFile files (FilePath.ofText name) yaml = .ok v) (no_map : v.map? = none)
  /-- The command line has species groups where the layers below it have no mapping. -/
  | clash {file : Option Value} {lower : Mapping} (document : document files name yaml = .ok file)
    (below : Layers.merged ⟨file, environment, .null⟩ = .ok lower) (clash : Clashes lower cli)
  /-- The checks of what all layers give together get stuck. -/
  | unguarded {file : Option Value} {settings : Mapping}
    (document : document files name yaml = .ok file)
    (merged : Layers.merged ⟨file, environment, .map cli⟩ = .ok settings)
    (unguarded : Unguarded settings)

/-- What there is no account of. -/
inductive Beyond : Prop
  /-- The document of the file is no tree. -/
  | entangled (named : name ≠ "") (entangled : Entangled files (FilePath.ofText name) yaml)
  /-- All layers together give a window in a time zone. -/
  | zone {file : Option Value} {settings : Mapping} (document : document files name yaml = .ok file)
    (merged : Layers.merged ⟨file, environment, .map cli⟩ = .ok settings) (zone : InZone settings)

end

theorem escapes_layers (hyaml : yaml.Regular) (hcli : cli.Regular)
    (hfile : document files name yaml = .ok file) :
    (ofLayers? ⟨file, environment, .map cli⟩).Escapes ↔
      (∃ v, file = some v ∧ v.map? = none) ∨
        (∃ lower, Layers.merged ⟨file, environment, .null⟩ = .ok lower ∧ Clashes lower cli) ∨
        ∃ settings, Layers.merged ⟨file, environment, .map cli⟩ = .ok settings ∧
          (Unguarded settings ∨ InZone settings) := by
  have h := merged_outcome environment (regular_document hyaml hfile) hcli
  rw [ofLayers?, Attempt.escapes_bind, ← or_assoc]
  generalize Layers.merged ⟨file, environment, .map cli⟩ = a at h
  cases h with
  | ok regular no_clash => simp [no_clash, escapes_ofSettings?, escapes_check regular]
  | error clash => simp [clash]

theorem escapes_load (hyaml : yaml.Regular) (hcli : cli.Regular) :
    (load files name environment (.map cli) yaml).Escapes ↔
      Stuck files name environment cli yaml ∨ Beyond files name environment cli yaml := by
  rw [load_eq, Attempt.escapes_bind, escapes_document]
  constructor
  · rintro (⟨named, hunreadable | hentangled⟩ | ⟨file, hfile, h⟩)
    · exact .inl (.unreadable named hunreadable)
    · exact .inr (.entangled named hentangled)
    · rcases (escapes_layers hyaml hcli hfile).1 h with ⟨v, rfl, hno⟩ | ⟨lower, hlower, hclash⟩ |
        ⟨settings, hmerged, hunguarded | hzone⟩
      · obtain ⟨named, hread⟩ := document_eq_ok.1 hfile
        exact .inl (.document named hread hno)
      · exact .inl (.clash hfile hlower hclash)
      · exact .inl (.unguarded hfile hmerged hunguarded)
      · exact .inr (.zone hfile hmerged hzone)
  · rintro (h | h)
    · cases h with
      | unreadable named hunreadable => exact .inl ⟨named, .inl hunreadable⟩
      | document named hread hno =>
        have hfile := document_eq_ok.2 ⟨named, hread⟩
        exact .inr ⟨_, hfile, (escapes_layers hyaml hcli hfile).2 (.inl ⟨_, rfl, hno⟩)⟩
      | clash hfile hlower hclash =>
        exact .inr ⟨_, hfile, (escapes_layers hyaml hcli hfile).2 (.inr (.inl ⟨_, hlower, hclash⟩))⟩
      | unguarded hfile hmerged hunguarded =>
        exact .inr ⟨_, hfile, (escapes_layers hyaml hcli hfile).2
          (.inr (.inr ⟨_, hmerged, .inl hunguarded⟩))⟩
    · cases h with
      | entangled named hentangled => exact .inl ⟨named, .inr hentangled⟩
      | zone hfile hmerged hzone =>
        exact .inr ⟨_, hfile, (escapes_layers hyaml hcli hfile).2
          (.inr (.inr ⟨_, hmerged, .inr hzone⟩))⟩

/-- Where there is no account of what comes of loading, its result says so. -/
theorem undescribed_of_beyond (h : Beyond files name environment cli yaml) :
    ∃ f, load files name environment (.map cli) yaml = .error f ∧ f.Undescribed := by
  rw [load_eq]
  cases h with
  | entangled named entangled =>
    rw [document, if_neg named, readFile_of_entangled entangled]
    exact ⟨_, rfl, rfl⟩
  | zone hfile hmerged hzone =>
    refine ⟨.undescribed "a window in a time zone", ?_, rfl⟩
    rw [hfile]
    change ofLayers? _ = _
    rw [ofLayers?, hmerged]
    change ofSettings? _ = _
    unfold ofSettings?
    split
    · next hok => cases hok.symm.trans (check_of_inZone hzone)
    · next herror =>
      cases herror.symm.trans (check_of_inZone hzone)
      rfl

def undatedOverrides : Mapping := [(inputKey, .map [(.text "path_template", .text "d.nc")])]

def nullSectionText : String := "\x7b\"input\": null\x7d"

def nullSection : FolderTree := ⟨[(["c.json"], .text nullSectionText)]⟩

end Configuration

end GridStream
