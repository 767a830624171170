import GridStream.Proofs.Config.Acceptance
import GridStream.Proofs.Config.Groups
import GridStream.Proofs.Config.Layers

/-!
# The precedence of layers

A key of the sections about input and processing has the value of the highest layer that sets it:
the command line, the environment, the file, or the defaults. Null is a value as any other. A
species group has the members of the highest layer that names it
(`Configuration.precedence`).
-/

namespace GridStream.Configuration
open Config Entries

variable {file : Option Mapping} {environment : List (String × String)} {cli settings : Mapping}
  {c : Configuration}

theorem settings_of_ofSettings? (h : ofSettings? settings = .ok c) : c.settings = settings := by
  unfold ofSettings? at h
  split at h <;> cases h
  rfl

/-- A layer that is absent is as one that sets nothing. -/
theorem merged_eq_ok
    (h : Layers.merged { file := file.map .map, environment, overrides := .map cli } =
      .ok settings) :
    ∃ m₁ m₂, merge defaults (file.getD []) = .ok m₁ ∧
      merge m₁ (environmentLayer environment) = .ok m₂ ∧ merge m₂ cli = .ok settings := by
  have hcli : ∀ m₂, (if (Value.map cli).isTrue then mergeLayer m₂ (.map cli) else .ok m₂) =
      merge m₂ cli := fun m₂ => by
    cases cli with
    | nil =>
      rw [merge]
      rfl
    | cons => rfl
  unfold Layers.merged at h
  simp only [hcli] at h
  cases file with
  | none =>
    obtain ⟨m₁, h₁, h⟩ := Attempt.bind_eq_ok.1 h
    obtain ⟨m₂, h₂, h⟩ := Attempt.bind_eq_ok.1 h
    exact ⟨m₁, m₂, by rwa [Option.getD_none, merge], h₂, h⟩
  | some m =>
    obtain ⟨m₁, h₁, h⟩ := Attempt.bind_eq_ok.1 h
    obtain ⟨m₂, h₂, h⟩ := Attempt.bind_eq_ok.1 h
    exact ⟨m₁, m₂, h₁, h₂, h⟩

theorem isKey_defaultGroups : ∀ e ∈ Catalog.defaultGroups, e.1.isKey = true := by
  intro e he
  obtain ⟨⟨name, member⟩, -, rfl⟩ := List.mem_map.1 he
  simp [Value.isKey]

theorem map?_of_environmentSets {name key v : Value}
    (h : environmentSets environment name key = some v) : v.map? = none := by
  obtain ⟨n, -, h⟩ := Option.bind_eq_some_iff.1 h
  obtain ⟨e, -, rfl⟩ := Option.map_eq_some_iff.1 h
  exact map?_environmentValue e.2

/-- The groups in effect can be had, since they were checked. -/
theorem exists_groups (c : Configuration) : ∃ gs, c.groups = .ok gs := by
  obtain ⟨_, -, h⟩ := Attempt.bind_eq_ok.1 c.checked
  obtain ⟨_, -, h⟩ := Attempt.bind_eq_ok.1 h
  obtain ⟨names, -, h⟩ := Attempt.bind_eq_ok.1 h
  dsimp only at h
  split at h
  · cases h
  · obtain ⟨gs, hgs, -⟩ := Attempt.bind_eq_ok.1 h
    exact ⟨gs, hgs⟩

theorem groups_eq (hc : IsComplete c.settings) :
    c.groups = overriddenGroups Catalog.defaultGroups (part c.settings groupsKey) := by
  have hg : groupsKey ∈ sectionKeys := by simp [sectionKeys]
  unfold groups groupsOf givenGroups
  rw [hc.get?_eq hg]
  cases part c.settings groupsKey with
  | nil => rfl
  | cons => rfl

/-- What the settings are that layers give together: values of sections, options of the command
line, species groups. -/
theorem precedence (hfile : ∀ m, file = some m → IsLayer m) (hcli : IsLayer cli)
    (h : ofLayers? { file := file.map .map, environment, overrides := .map cli } = .ok c) :
    (c.input = .map (part c.settings inputKey) ∧
      c.processing = .map (part c.settings processingKey)) ∧
    (∀ name ∈ [inputKey, processingKey], ∀ key,
      (∀ v, given cli name key = some v → v.map? = none) →
      (∀ v, given (file.getD []) name key = some v → v.map? = none) →
      given c.settings name key = (given cli name key).or
        ((environmentSets environment name key).or
          ((given (file.getD []) name key).or (given defaults name key)))) ∧
    (∀ r : Command.SummaryRequest, IsLayer r.overrides ∧
      ∀ name ∈ [inputKey, processingKey], ∀ key, given r.overrides name key = r.sets name key) ∧
    (∀ name, given c.settings groupsKey name =
      (given cli groupsKey name).or (given (file.getD []) groupsKey name)) ∧
    ∃ gs, c.groups = .ok gs ∧ ∀ name,
      match given c.settings groupsKey name with
      | none => gs.get? name = Catalog.defaultGroups.get? name
      | some v => ∃ g, gs.get? name = some g ∧ g.name.same name = true ∧ v = .map g.entries ∧
        g.units = unitsBelow Catalog.defaultGroups name := by
  obtain ⟨settings, hm, hs⟩ := Attempt.bind_eq_ok.1 h
  obtain rfl := settings_of_ofSettings? hs
  obtain ⟨m₁, m₂, h₁, h₂, h₃⟩ := merged_eq_ok hm
  have hf : IsLayer (file.getD []) := by
    cases file with
    | none => exact ⟨.nil, fun _ _ _ hv => by cases hv⟩
    | some m => exact hfile m rfl
  have he : IsLayer (environmentLayer environment) := isLayer_environmentLayer
  have hc₁ := isComplete_merge isComplete_defaults hf h₁
  have hc₂ := isComplete_merge hc₁ he h₂
  have hc₃ := isComplete_merge hc₂ hcli h₃
  have hg : groupsKey ∈ sectionKeys := by simp [sectionKeys]
  refine ⟨⟨?_, ?_⟩, fun name hn key hkc hkf => ?_, fun r => ⟨r.isLayer_overrides, fun name hn key =>
    r.given_overrides hn key⟩, fun name => ?_, ?_⟩
  · rw [input, hc₃.get?_eq (by simp [sectionKeys])]
    rfl
  · rw [processing, hc₃.get?_eq (by simp [sectionKeys])]
    rfl
  · have hke : ∀ v, given (environmentLayer environment) name key = some v → v.map? = none :=
      fun v hv => map?_of_environmentSets (given_environmentLayer hn key ▸ hv)
    rw [given_merge hc₂ hcli h₃ hn hkc, given_merge hc₁ he h₂ hn hke,
      given_merge isComplete_defaults hf h₁ hn hkf, given_environmentLayer hn]
  · unfold given
    rw [part_groupsKey hc₂ hcli h₃, part_groupsKey hc₁ he h₂,
      part_groupsKey isComplete_defaults hf h₁, part_groupsKey_environmentLayer]
    have hd : Distinct (part defaults groupsKey) := .nil
    have hb : ∀ e ∈ (part defaults groupsKey).update (part (file.getD []) groupsKey),
        e.1.isKey = true := Mapping.isKey_update hd.isKey (hf.distinct_part hg).isKey
    change (((part defaults groupsKey).update (part (file.getD []) groupsKey)).update
      (part cli groupsKey)).get? name = _
    rw [Mapping.get?_update hb (hcli.distinct_part hg),
      Mapping.get?_update hd.isKey (hf.distinct_part hg)]
    have hnone : (part defaults groupsKey).get? name = none := rfl
    rw [hnone, Option.or_none]
  · obtain ⟨gs, hgs⟩ := exists_groups c
    refine ⟨gs, hgs, fun name => ?_⟩
    rw [groups_eq hc₃] at hgs
    exact get?_overriddenGroups isKey_defaultGroups (hc₃.toIsLayer.distinct_part hg) hgs name

/-! ## Three layers over the defaults -/

def sampleFile : Mapping :=
  [(inputKey, .map [(.text "start_date", .text "20050101"), (.text "end_date", .text "20050103")]),
    (groupsKey, .map [(.text "sox", .map [(.text "SO4", .int 2)])])]

def sampleEnvironment : List (String × String) :=
  [("WRFCMAQ_END_DATE", "20050102"), ("WRFCMAQ_LOG_FILE", "True")]

def sampleOverrides : Mapping := [(inputKey, .map [(.text "start_date", .null)])]

def sampleSettings : Mapping :=
  [(inputKey, .map
      [(.text "path_template", .null), (.text "start_date", .null),
        (.text "end_date", .text "20050102"), (.text "record_interval", .text "1h"),
        (.text "file_interval", .text "24h"), (.text "date_format", .text "%Y-%m-%d")]),
    (processingKey, .map
      [(.text "log_level", .text "INFO"), (.text "log_file", .bool true),
        (.text "report_progress", .bool true)]),
    (groupsKey, .map [(.text "sox", .map [(.text "SO4", .int 2)])])]

theorem check_sampleSettings : check sampleSettings = .ok () := by
  have hinput : checkInput sampleSettings = .ok () :=
    checkInput_eq_ok.2 ⟨_, rfl, rfl, checkIntervals_hour_day, rfl⟩
  have hgroups : checkGroups sampleSettings = .ok () :=
    checkGroups_eq_ok.2 ⟨[(.text "sox", .map [(.text "SO4", .int 2)])], _, rfl,
      by simp [Value.isKey], by simp [Catalog.find?, Catalog.quantities], rfl⟩
  exact check_eq_ok.2 ⟨hinput, rfl, hgroups⟩

theorem isLayer_sampleFile : IsLayer sampleFile where
  distinct := distinct_of_texts [("input", _), ("species_groups", _)] (by simp)
  section_ name hn v hv := by
    simp only [sectionKeys, List.mem_cons, List.not_mem_nil, or_false] at hn
    rcases hn with rfl | rfl | rfl
    · exact ⟨_, (Option.some.inj hv).symm,
        distinct_of_texts [("start_date", _), ("end_date", _)] (by simp)⟩
    · cases hv
    · exact ⟨_, (Option.some.inj hv).symm, distinct_of_texts [("sox", _)] (by simp)⟩

theorem isLayer_sampleOverrides : IsLayer sampleOverrides where
  distinct := distinct_of_texts [("input", _)] (by simp)
  section_ name hn v hv := by
    simp only [sectionKeys, List.mem_cons, List.not_mem_nil, or_false] at hn
    rcases hn with rfl | rfl | rfl
    · exact ⟨_, (Option.some.inj hv).symm, distinct_of_texts [("start_date", _)] (by simp)⟩
    · cases hv
    · cases hv

/-- Null on the command line wins over the file, the environment over the file, and the group of the
file over the default one, whose units it has. -/
theorem precedence_sample : ∃ c : Configuration,
    ofLayers? ⟨some (.map sampleFile), sampleEnvironment, .map sampleOverrides⟩ = .ok c ∧
      given c.settings inputKey (.text "start_date") = some .null ∧
      given c.settings inputKey (.text "end_date") = some (.text "20050102") ∧
      given c.settings processingKey (.text "log_file") = some (.bool true) ∧
      given c.settings inputKey (.text "record_interval") = some (.text "1h") ∧
      ∃ gs g, c.groups = .ok gs ∧ gs.get? (.text "sox") = some g ∧
        g.entries = [(.text "SO4", .int 2)] ∧ g.units = Catalog.concentrationUnits := by
  have h : ofLayers? ⟨some (.map sampleFile), sampleEnvironment, .map sampleOverrides⟩ =
      .ok ⟨sampleSettings, check_sampleSettings⟩ := by
    refine Attempt.bind_eq_ok.2 ⟨sampleSettings, rfl, ?_⟩
    unfold ofSettings?
    split
    · rfl
    · next hf =>
      rw [check_sampleSettings] at hf
      cases hf
  have hfile : ∀ m, some sampleFile = some m → IsLayer m := fun m hm =>
    Option.some.inj hm ▸ isLayer_sampleFile
  obtain ⟨-, hvalue, -, -, gs, hgs, hgroup⟩ := precedence hfile isLayer_sampleOverrides h
  have hi : inputKey ∈ [inputKey, processingKey] := List.mem_cons_self
  have hp : processingKey ∈ [inputKey, processingKey] := by simp
  have hunset : ∀ {o : Option Value}, o = none → ∀ v, o = some v → v.map? = none := by
    rintro _ rfl v hv
    cases hv
  obtain ⟨g, hg, -, hmembers, hunits⟩ := hgroup (.text "sox")
  refine ⟨_, h, ?_, ?_, ?_, ?_, gs, g, hgs, hg, (Value.map.inj hmembers).symm, hunits⟩
  · exact hvalue inputKey hi (.text "start_date") (fun v hv => Option.some.inj hv ▸ rfl)
      fun v hv => Option.some.inj hv ▸ rfl
  · exact hvalue inputKey hi (.text "end_date") (hunset rfl) fun v hv => Option.some.inj hv ▸ rfl
  · exact hvalue processingKey hp (.text "log_file") (hunset rfl) (hunset rfl)
  · exact hvalue inputKey hi (.text "record_interval") (hunset rfl) (hunset rfl)

end GridStream.Configuration
