import GridStream.Proofs.Config.Completion
import GridStream.Proofs.Config.Loading
import GridStream.Proofs.Files
import GridStream.Proofs.Text.Replace

/-!
# Saving and loading a configuration

A configuration that JSON has a form for can be saved, and what was saved can be loaded. The
settings are the same as before exactly if they leave out no default (`Configuration.reload`). They
do not leave out any if no layer had something else than a mapping in the place of a section
(`Configuration.hasDefaults_of_load`).
-/

namespace GridStream

namespace ConfigFormat

variable {settings : Mapping}

theorem withLineFeeds_of_printed {s : String} (h : ∀ c ∈ s.toList, Json.Printed c) :
    withLineFeeds s = s := by
  have hreturn : '\r' ∉ s.toList := fun hc => absurd (h _ hc) (by decide)
  have hpair : Text.replaceAll "\r\n" "\n" s = s := Text.replaceAll_of_not_mem rfl hreturn
  have hsingle : Text.replaceAll "\r" "\n" s = s := Text.replaceAll_of_not_mem rfl hreturn
  rw [withLineFeeds, hpair, hsingle]

/-- Settings that JSON has a form for are written, and what was written is read as the settings. -/
theorem write_json (h : (Value.map settings).Portable) : ∃ text, json.write settings = .ok text ∧
    Json.read? (withLineFeeds text) = some (.map settings) := by
  obtain ⟨text, hwrite, hread, hprinted⟩ := Json.read?_document h
  refine ⟨text, ?_, ?_⟩
  · rw [write, hwrite]
  · rw [withLineFeeds_of_printed hprinted, hread]

end ConfigFormat

namespace Configuration
open Config Entries

variable {c : Configuration} {files : FolderTree} {name : String} {place : List String}
  {environment : List (String × String)} {m r : Mapping}

theorem save_json {text : String} (hjson : ConfigFormat.ofPath? (FilePath.ofText name) = some .json)
    (hplace : files.writable (FilePath.ofText name) = .ok place)
    (hwrite : ConfigFormat.json.write c.settings = .ok text) :
    c.save files name = .ok (files.set place (.text text)) := by
  have hwritten := FolderTree.write_of_writable text hplace
  unfold save
  simp only [hjson, hplace, hwrite]
  exact hwritten

/-- A path for JSON is not empty. -/
theorem ne_empty_of_json (hjson : ConfigFormat.ofPath? (FilePath.ofText name) = some .json) :
    name ≠ "" := by
  rintro rfl
  have hempty : ConfigFormat.ofPath? (FilePath.ofText "") = none := by
    rw [FilePath.ofText_of_relative (by decide)]
    rfl
  rw [hempty] at hjson
  cases hjson

/-- Loading settings from a file alone lays them over the defaults. -/
theorem ofLayers?_file (he : Unset environment) (hr : merge defaults m = .ok r)
    (hc : check r = .ok ()) :
    ∃ c', ofLayers? ⟨some (.map m), environment, .null⟩ = .ok c' ∧ c'.settings = r := by
  obtain ⟨c', hc'⟩ := exists_ofSettings?.2 hc
  refine ⟨c', ?_, settings_of_ofSettings? hc'⟩
  have hmerged : Layers.merged ⟨some (.map m), environment, .null⟩ = .ok r := by
    rw [merged_null, environmentLayer_of_unset he, fileSettings, mergeLayer, hr]
    exact merge.eq_1 r
  rw [ofLayers?, hmerged]
  exact hc'

/-- A configuration is saved to a path for JSON that can be written, and loaded from there without
an environment and overrides. -/
theorem exists_reload (hportable : (Value.map c.settings).Portable)
    (hjson : ConfigFormat.ofPath? (FilePath.ofText name) = some .json)
    (hplace : files.writable (FilePath.ofText name) = .ok place) (he : Unset environment) :
    ∃ saved c', c.save files name = .ok saved ∧ load saved name environment .null = .ok c' ∧
      ((Value.map c'.settings).same (.map c.settings) = true ↔ HasDefaults c.settings) := by
  obtain ⟨text, hwrite, hread⟩ := ConfigFormat.write_json hportable
  obtain ⟨r, hr, -⟩ :=
    exists_merge regular_defaults hportable.regular not_clashes_defaults
  obtain ⟨c', hc', hsettings⟩ :=
    ofLayers?_file he hr (check_completed hportable.regular hr c.checked)
  have hfile : readFile (files.set place (.text text)) (FilePath.ofText name) =
      .ok (.map c.settings) := readFile_json (FolderTree.find?_set hplace) hjson hread
  have hdocument := document_eq_ok.2 ⟨ne_empty_of_json hjson, hfile⟩
  refine ⟨files.set place (.text text), c', save_json hjson hplace hwrite, ?_, ?_⟩
  · rw [load_eq, hdocument]
    exact hc'
  · rw [hsettings]
    exact same_completed_iff hportable hr

/-! ## The form of the defaults -/

theorem portable_of_texts (l : List (String × Value)) (h : l.Pairwise fun a b => a.1 ≠ b.1)
    (hvalues : ∀ e ∈ l, e.2.Portable) :
    (Value.map (l.map fun e => (.text e.1, e.2))).Portable :=
  .map ⟨distinct_of_texts l h, List.forall_mem_map.2 fun e _ => ⟨e.1, rfl⟩⟩
    (List.forall_mem_map.2 hvalues)

theorem portable_defaults : (Value.map defaults).Portable := by
  have hinput : (Value.map (part defaults inputKey)).Portable := portable_of_texts
    [("path_template", _), ("start_date", _), ("end_date", _), ("record_interval", _),
      ("file_interval", _), ("date_format", _)] (by simp) (by
        simp only [List.forall_mem_cons]
        exact ⟨.null, .null, .null, .text _, .text _, .text _, by simp⟩)
  have hprocessing : (Value.map (part defaults processingKey)).Portable := portable_of_texts
    [("log_level", _), ("log_file", _), ("report_progress", _)] (by simp) (by
      simp only [List.forall_mem_cons]
      exact ⟨.text _, .null, .bool _, by simp⟩)
  exact portable_of_texts [("input", _), ("processing", _), ("species_groups", _)] (by simp) (by
    simp only [List.forall_mem_cons]
    exact ⟨hinput, hprocessing, portable_of_texts [] .nil (by simp), by simp⟩)

/-! ## Layers that leave out nothing -/

theorem keepsSections_environmentLayer : KeepsSections (environmentLayer environment) := by
  intro key _ v hv
  obtain ⟨e, he, -, rfl⟩ := mem_of_get? hv
  obtain ⟨-, entries, hmap, -⟩ := flat_environmentLayer e he
  exact ⟨entries, hmap⟩

variable {source : FolderTree} {config : String} {later : List (String × String)} {cli : Mapping}

/-- The settings that are loaded leave out no default, unless a layer has something else than a
mapping in the place of a section. -/
theorem hasDefaults_of_load (hload : load source config environment (.map cli) = .ok c)
    (hcli : cli.Regular)
    (hfile : ∀ m, document source config = .ok (some (.map m)) → KeepsSections m)
    (hkeeps : KeepsSections cli) : HasDefaults c.settings := by
  rw [load_eq, Attempt.bind_eq_ok] at hload
  obtain ⟨file, hdocument, hc⟩ := hload
  obtain ⟨settings, hmerged, hc⟩ := Attempt.bind_eq_ok.1 hc
  rw [merged_eq, merged_null, Attempt.bind_eq_ok] at hmerged
  obtain ⟨lower, hlower, hsettings⟩ := hmerged
  obtain ⟨fromFile, hfromFile, hlower⟩ := Attempt.bind_eq_ok.1 hlower
  have hwhole : Whole fromFile ∧ fromFile.Regular := by
    cases file with
    | none =>
      cases hfromFile
      exact ⟨whole_defaults, regular_defaults⟩
    | some v =>
      have hregular := regular_document Yaml.regular_read hdocument v rfl
      cases v with
      | map m =>
        exact ⟨whole_defaults.merge regular_defaults hregular (hfile m hdocument) hfromFile,
          regular_merge regular_defaults hregular hfromFile⟩
      | _ => cases hfromFile
  have hlowerRegular := regular_merge hwhole.2 regular_environmentLayer hlower
  have hlowerWhole :=
    hwhole.1.merge hwhole.2 regular_environmentLayer keepsSections_environmentLayer hlower
  rw [settings_of_ofSettings? hc]
  exact (hlowerWhole.merge hlowerRegular hcli hkeeps hsettings).hasDefaults

/-- A configuration that was loaded and that JSON has a form for is saved, and loaded from there
without an environment and overrides. It has the same settings exactly if they leave out no default,
and in particular if no layer has something else than a mapping in the place of a section. -/
theorem reload (hload : load source config environment (.map cli) = .ok c) (hcli : cli.Regular)
    (hportable : (Value.map c.settings).Portable)
    (hjson : ConfigFormat.ofPath? (FilePath.ofText name) = some .json)
    (hplace : files.writable (FilePath.ofText name) = .ok place) (hlater : Unset later) :
    ∃ saved c', c.save files name = .ok saved ∧ load saved name later .null = .ok c' ∧
      ((Value.map c'.settings).same (.map c.settings) = true ↔ HasDefaults c.settings) ∧
      ((∀ m, document source config = .ok (some (.map m)) → KeepsSections m) →
        KeepsSections cli → (Value.map c'.settings).same (.map c.settings) = true) := by
  obtain ⟨saved, c', hsaved, hc', hsame⟩ := exists_reload hportable hjson hplace hlater
  exact ⟨saved, c', hsaved, hc', hsame, fun hfile hkeeps =>
    hsame.2 (hasDefaults_of_load hload hcli hfile hkeeps)⟩

/-! ## An additional section, and a section that is null -/

theorem readsBack_half : Json.ReadsBack 0.5 := by
  have hparts : Decimal.Parts.ofFloat 0.5 = .finite false 4503599627370496 (-53) := by
    decide +kernel
  have hdigits : Decimal.shortestDigits 4503599627370496 (-53) = (['5'], -1) := by decide +kernel
  have htext : Decimal.positionalText (Decimal.trimZeros ['5']) (-1) = "0.5" := by rfl
  have hpoint : "0.5".contains '.' = true := by simp
  have hshortest : Decimal.shortest 0.5 = "0.5" := by
    rw [Decimal.shortest, hparts]
    dsimp only
    rw [hdigits, htext, hpoint]
    rfl
  have hread : Json.readSigned "0.5".toList = some (.float (Decimal.ofDecimal 5 (-1)), []) := by rfl
  have hhalf : Decimal.ofDecimal 5 (-1) = 0.5 := by decide +kernel
  rw [Json.ReadsBack, hshortest, hread, hhalf]

/-- Overrides with a section of their own. -/
def notedOverrides : Mapping :=
  [(.text "notes", .map [(.text "a \"b\"\n\x7f", .list [.float 0.5, .int (-2), .null, .map []])])]

def notedSettings : Mapping := defaults ++ notedOverrides

theorem portable_notedOverrides : (Value.map notedOverrides).Portable := by
  have hhalf : Decimal.Parts.ofFloat 0.5 ≠ .nan := by decide +kernel
  have hlist : (Value.list [.float 0.5, .int (-2), .null, .map []]).Portable :=
    .list (by
      simp only [List.forall_mem_cons]
      exact ⟨.float hhalf fun _ => readsBack_half, .int _, .null,
        portable_of_texts [] .nil (by simp), by simp⟩)
  have hnotes := portable_of_texts [("a \"b\"\n\x7f", _)] (by simp)
    (List.forall_mem_singleton.2 hlist)
  exact portable_of_texts [("notes", _)] (by simp) (List.forall_mem_singleton.2 hnotes)

theorem portable_notedSettings : (Value.map notedSettings).Portable :=
  .map ⟨distinct_of_texts
      [("input", _), ("processing", _), ("species_groups", _), ("notes", _)] (by simp),
      List.forall_mem_append.2 ⟨portable_defaults.named.texts, portable_notedOverrides.named.texts⟩⟩
    (List.forall_mem_append.2 ⟨portable_defaults.values, portable_notedOverrides.values⟩)

theorem check_notedSettings : check notedSettings = .ok () := by
  obtain ⟨hinput, -, hgroups⟩ := check_eq_ok.1 check_defaults
  exact check_eq_ok.2 ⟨(checkInput_congr rfl).trans hinput, rfl,
    (checkGroups_congr rfl).trans hgroups⟩

/-- A configuration with a section of its own stays as it is. -/
theorem reload_noted : ∃ c saved c', load {} "" [] (.map notedOverrides) = .ok c ∧
    (Value.map c.settings).Portable ∧
    c.save {} "c.json" = .ok saved ∧ load saved "c.json" [] .null = .ok c' ∧
    (Value.map c'.settings).same (.map c.settings) = true := by
  obtain ⟨c, hc⟩ := exists_ofSettings?.2 check_notedSettings
  have hload : load {} "" [] (.map notedOverrides) = .ok c := hc
  have hsettings := settings_of_ofSettings? hc
  have hportable : (Value.map c.settings).Portable := hsettings ▸ portable_notedSettings
  have hpath : FilePath.ofText "c.json" = ⟨"", ["c.json"]⟩ :=
    FilePath.ofText_of_relative (by decide)
  have hplace : FolderTree.writable {} (FilePath.ofText "c.json") = .ok ["c.json"] := hpath ▸ rfl
  have hunset : Unset [] := fun _ _ => rfl
  have hkeeps : KeepsSections notedOverrides := by
    intro key hkey v hv
    simp only [List.mem_cons, List.not_mem_nil, or_false] at hkey
    rcases hkey with rfl | rfl <;> cases hv
  obtain ⟨saved, c', hsaved, hc', -, hsame⟩ := reload hload portable_notedOverrides.regular
    hportable (hpath ▸ rfl) hplace hunset
  exact ⟨c, saved, c', hload, hportable, hsaved, hc', hsame (fun m hm => by cases hm) hkeeps⟩

def nullProcessingText : String := "\x7b\"processing\": null\x7d"

def nullProcessing : FolderTree := ⟨[(["c.json"], .text nullProcessingText)]⟩

def levelEnvironment : List (String × String) := [("WRFCMAQ_LOG_LEVEL", "INFO")]

/-- The settings that the environment makes of the null in the file. -/
def levelSettings : Mapping :=
  [(inputKey, .map (part defaults inputKey)),
    (processingKey, .map [(.text "log_level", .text "INFO")]), (groupsKey, .map [])]

theorem check_levelSettings : check levelSettings = .ok () := by
  obtain ⟨hinput, -, hgroups⟩ := check_eq_ok.1 check_defaults
  exact check_eq_ok.2 ⟨(checkInput_congr rfl).trans hinput, rfl,
    (checkGroups_congr rfl).trans hgroups⟩

theorem portable_levelSettings : (Value.map levelSettings).Portable := by
  have hlevel := portable_of_texts [("log_level", .text "INFO")] (by simp)
    (List.forall_mem_singleton.2 (.text _))
  exact portable_of_texts [("input", _), ("processing", _), ("species_groups", _)] (by simp) (by
    simp only [List.forall_mem_cons]
    exact ⟨portable_defaults.values (inputKey, _) List.mem_cons_self, hlevel,
      portable_of_texts [] .nil (by simp), by simp⟩)

theorem not_hasDefaults_levelSettings : ¬ HasDefaults levelSettings := by
  intro h
  obtain ⟨v, hv, hcovers⟩ := h processingKey _ rfl
  cases hv
  obtain ⟨w, hw⟩ := hcovers _ rfl (.text "report_progress") _ rfl
  cases hw

/-- A null in the place of a section, with a setting of the environment over it, loses the defaults,
which are back when the configuration is loaded again. -/
theorem nullProcessing_changed : ∃ c saved c',
    load nullProcessing "c.json" levelEnvironment (.map []) = .ok c ∧
    (Value.map c.settings).Portable ∧
    c.save nullProcessing "out.json" = .ok saved ∧ load saved "out.json" [] .null = .ok c' ∧
    (Value.map c'.settings).same (.map c.settings) = false := by
  have hpath : FilePath.ofText "c.json" = ⟨"", ["c.json"]⟩ :=
    FilePath.ofText_of_relative (by decide)
  have hout : FilePath.ofText "out.json" = ⟨"", ["out.json"]⟩ :=
    FilePath.ofText_of_relative (by decide)
  have htokens : Json.tokens? nullProcessingText =
      some [.openMap, .text "processing", .colon, .word .null, .closeMap] := by rfl
  have hread : Json.read? nullProcessingText = some (.map [(processingKey, .null)]) := by
    rw [Json.read?, htokens]
    rfl
  have hlines : ConfigFormat.withLineFeeds nullProcessingText = nullProcessingText := by rfl
  have hfile : readFile nullProcessing (FilePath.ofText "c.json") =
      .ok (.map [(processingKey, .null)]) :=
    readFile_json (hpath ▸ rfl) (hpath ▸ rfl) (hlines.symm ▸ hread)
  have hdocument := document_eq_ok.2 ⟨by decide, hfile⟩
  obtain ⟨c, hc⟩ := exists_ofSettings?.2 check_levelSettings
  have hload : load nullProcessing "c.json" levelEnvironment (.map []) = .ok c := by
    rw [load_eq, hdocument]
    exact hc
  have hsettings := settings_of_ofSettings? hc
  have hportable : (Value.map c.settings).Portable := hsettings ▸ portable_levelSettings
  have hplace : nullProcessing.writable (FilePath.ofText "out.json") = .ok ["out.json"] := by
    rw [hout]
    rfl
  have hunset : Unset [] := fun _ _ => rfl
  obtain ⟨saved, c', hsaved, hc', hsame⟩ := exists_reload hportable (hout ▸ rfl) hplace hunset
  refine ⟨c, saved, c', hload, hportable, hsaved, hc', ?_⟩
  rw [← Bool.not_eq_true, hsame, hsettings]
  exact not_hasDefaults_levelSettings

end Configuration

end GridStream
