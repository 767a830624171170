import GridStream.Proofs.Config.Precedence
import GridStream.Proofs.ModelRun.Making

/-!
# Configurations and runs agree

A configuration checks what a run is made from before the run is made. Both accept the same
settings, and from an accepted configuration with a template and dates the run can always be made:
it has the window, the intervals and the species groups of the configuration
(`Configuration.accepted_iff_makes`).
-/

namespace GridStream
open Config Entries

/-! ## Building species groups -/

namespace SpeciesGroup

variable {name v : Value} {units : String} {g : SpeciesGroup}

theorem ofValue?_units : ofValue? name v units = (ofValue? name v).map ({ · with units }) := by
  cases v with
  | map entries =>
    cases entries with
    | nil => rfl
    | cons e rest =>
      simp only [ofValue?, make?]
      cases checkMembers name [] (e :: rest) <;> rfl
  | _ => rfl

theorem exists_ofValue? (units : String) :
    (∃ g, ofValue? name v units = .ok g) ↔ ∃ g, ofValue? name v = .ok g := by
  rw [ofValue?_units]
  cases ofValue? name v <;> simp [Except.map]

end SpeciesGroup

namespace SpeciesGroups

variable {gs overrides : SpeciesGroups} {groups : List (String × Mapping)}

theorem update_eq : gs.update overrides = Entries.update gs overrides := by
  induction overrides generalizing gs with
  | nil => rfl
  | cons e rest ih =>
    rw [Entries.update_cons, ← put_eq]
    exact ih

/-- The species groups that mappings of weights stand for. -/
def ofWeights? : List (String × Mapping) → Attempt SpeciesGroups
  | [] => .ok []
  | (name, weights) :: rest => do
    let g ← SpeciesGroup.ofValue? (.text name) (.map weights)
    .ok ((.text name, g) :: (← ofWeights? rest))

theorem names_of_ofWeights? (h : ofWeights? groups = .ok gs) :
    gs.names = groups.map fun e => .text e.1 := by
  induction groups generalizing gs with
  | nil =>
    cases h
    rfl
  | cons e rest ih =>
    obtain ⟨g, -, h⟩ := Attempt.bind_eq_ok.1 h
    obtain ⟨others, ho, h⟩ := Attempt.bind_eq_ok.1 h
    cases h
    rw [List.map_cons, ← ih ho]
    rfl

theorem exists_ofWeights? : (∃ gs, ofWeights? groups = .ok gs) ↔
    ∀ e ∈ groups, ∃ g, SpeciesGroup.ofValue? (.text e.1) (.map e.2) = .ok g := by
  induction groups with
  | nil => simp [ofWeights?]
  | cons e rest ih =>
    rw [List.forall_mem_cons, ← ih]
    constructor
    · rintro ⟨gs, h⟩
      obtain ⟨g, hg, h⟩ := Attempt.bind_eq_ok.1 h
      obtain ⟨others, ho, -⟩ := Attempt.bind_eq_ok.1 h
      exact ⟨⟨g, hg⟩, others, ho⟩
    · rintro ⟨⟨g, hg⟩, others, ho⟩
      exact ⟨_, Attempt.bind_eq_ok.2 ⟨g, hg, Attempt.bind_eq_ok.2 ⟨others, ho, rfl⟩⟩⟩

end SpeciesGroups

namespace Catalog

theorem distinct_defaultGroups : Distinct defaultGroups where
  isKey := Configuration.isKey_defaultGroups
  pairwise := by
    have hnames : defaultMembers.Pairwise fun a b => a.1 ≠ b.1 := by decide
    rw [defaultGroups, List.pairwise_map]
    exact hnames.imp fun hne => by simpa [Value.same] using hne

/-- No species group that is in effect by default has the name of a quantity. -/
theorem find?_of_mem_defaultGroups : ∀ e ∈ defaultGroups, find? e.1 = none := by
  simp [defaultGroups, defaultMembers, find?, quantities]

end Catalog

namespace Config

variable {gs out : SpeciesGroups} {entries : List (Value × Value)}

theorem exists_overriddenGroups : (∃ out, overriddenGroups gs entries = .ok out) ↔
    ∀ e ∈ entries, ∃ g, SpeciesGroup.ofValue? e.1 e.2 = .ok g := by
  induction entries generalizing gs with
  | nil => simp [overriddenGroups]
  | cons e rest ih =>
    rw [List.forall_mem_cons]
    constructor
    · rintro ⟨out, h⟩
      obtain ⟨g, hg, h⟩ := Attempt.bind_eq_ok.1 h
      exact ⟨(SpeciesGroup.exists_ofValue? _).1 ⟨g, hg⟩, ih.1 ⟨out, h⟩⟩
    · rintro ⟨hg, hrest⟩
      obtain ⟨g, hg⟩ := (SpeciesGroup.exists_ofValue? (unitsBelow gs e.1)).2 hg
      obtain ⟨out, h⟩ := ih.2 hrest
      exact ⟨out, Attempt.bind_eq_ok.2 ⟨g, hg, h⟩⟩

/-- The names of the groups in effect are those that there were below, and those that are set. -/
theorem forall_name_overriddenGroups {P : Value → Prop} (hgs : ∀ e ∈ gs, P e.1)
    (hentries : ∀ e ∈ entries, P e.1) (h : overriddenGroups gs entries = .ok out) :
    ∀ e ∈ out, P e.1 := by
  induction entries generalizing gs with
  | nil =>
    cases h
    exact hgs
  | cons e rest ih =>
    obtain ⟨g, -, h⟩ := Attempt.bind_eq_ok.1 h
    rw [List.forall_mem_cons] at hentries
    rw [SpeciesGroups.put_eq] at h
    exact ih (forall_key_put hgs hentries.1) hentries.2 h

theorem distinct_overriddenGroups (hgs : Distinct gs)
    (hentries : ∀ e ∈ entries, e.1.isKey = true) (h : overriddenGroups gs entries = .ok out) :
    Distinct out := by
  induction entries generalizing gs with
  | nil =>
    cases h
    exact hgs
  | cons e rest ih =>
    obtain ⟨g, -, h⟩ := Attempt.bind_eq_ok.1 h
    rw [List.forall_mem_cons] at hentries
    rw [SpeciesGroups.put_eq] at h
    exact ih (hgs.put hentries.1) hentries.2 h

/-- Overriding keeps the places of the groups below, and adds new ones at the end. -/
theorem names_overriddenGroups (h : overriddenGroups gs entries = .ok out) :
    ∃ added, out.names = gs.names ++ added := by
  induction entries generalizing gs with
  | nil =>
    cases h
    exact ⟨[], (List.append_nil _).symm⟩
  | cons e rest ih =>
    obtain ⟨g, -, h⟩ := Attempt.bind_eq_ok.1 h
    obtain ⟨added, h⟩ := ih h
    obtain ⟨new, hnew⟩ : ∃ new, (gs.put e.1 g).names = gs.names ++ new := by
      rw [SpeciesGroups.put_eq]
      exact map_fst_put gs
    exact ⟨new ++ added, by rw [h, hnew, List.append_assoc]⟩

/-- The groups in effect are in effect again when they override the default ones. -/
theorem update_overriddenGroups (hentries : ∀ e ∈ entries, e.1.isKey = true)
    (h : overriddenGroups Catalog.defaultGroups entries = .ok out) :
    Catalog.defaultGroups.update out = out := by
  obtain ⟨added, hnames⟩ := names_overriddenGroups h
  obtain ⟨heads, rest, rfl, hheads, -⟩ := List.map_eq_append_iff.1 hnames
  rw [SpeciesGroups.update_eq]
  refine update_of_keys (distinct_overriddenGroups Catalog.distinct_defaultGroups hentries h)
    hheads.symm fun e he => ?_
  obtain ⟨⟨name, member⟩, -, rfl⟩ := List.mem_map.1 he
  simp [Value.same]

end Config

namespace Configuration

variable {c : Configuration} {path field : String} {v start stop record file : Value}
  {environment : List (String × String)} {template : String} {groups : List (String × Mapping)}
  {input : Mapping}

/-! ## Settings of a run as overrides -/

/-- The entries of species groups. -/
def groupEntries (groups : List (String × Mapping)) : Mapping :=
  groups.map fun e => (.text e.1, .map e.2)

/-- The layer that sets what a run is made from, and nothing else. -/
def runLayer (template : String) (start stop record file : Value)
    (groups : List (String × Mapping)) : Mapping :=
  [(inputKey, .map
      [(.text "path_template", .text template), (.text "start_date", start),
        (.text "end_date", stop), (.text "record_interval", record),
        (.text "file_interval", file)]),
    (groupsKey, .map (groupEntries groups))]

/-- The defaults with such a layer over them. -/
def runMapping (template : String) (start stop record file : Value)
    (groups : List (String × Mapping)) : Mapping :=
  [(inputKey, .map
      [(.text "path_template", .text template), (.text "start_date", start),
        (.text "end_date", stop), (.text "record_interval", record),
        (.text "file_interval", file), (.text "date_format", .text "%Y-%m-%d")]),
    (processingKey, .map (part defaults processingKey)),
    (groupsKey, .map (groupEntries groups))]

/-- An environment in which none of the names is set that stand for settings. -/
def Unset (environment : List (String × String)) : Prop :=
  ∀ n ∈ environmentNames, environment.find? (·.1 == n.1) = none

theorem environmentLayer_of_unset (h : Unset environment) : environmentLayer environment = [] := by
  have hsection : ∀ key, environmentSection environment key = [] := fun key =>
    List.filterMap_eq_nil_iff.2 fun n hn => by
      dsimp only
      rw [h n hn]
      simp
  simp [environmentLayer, hsection]

theorem distinct_groupEntries (h : (groups.map Prod.fst).Nodup) :
    Distinct (groupEntries groups) where
  isKey e he := by
    obtain ⟨_, -, rfl⟩ := List.mem_map.1 he
    simp [Value.isKey]
  pairwise := by
    rw [groupEntries, List.pairwise_map]
    rw [List.Nodup, List.pairwise_map] at h
    exact h.imp fun hne => by simpa [Value.same] using hne

/-- A value over one that is no mapping takes its place. -/
theorem layOver_of_not_map {base : Mapping} {key below : Value} (hb : base.get? key = some below)
    (hm : below.map? = none) (hg : key.same groupsKey = false) :
    layOver base key v = .ok (base.put key v) := by
  cases v with
  | map entries => cases below <;> first | cases hm; done | simp [layOver, hb, hg]
  | _ => simp [layOver]

theorem merged_runLayer (he : Unset environment) (hgroups : (groups.map Prod.fst).Nodup) :
    Layers.merged ⟨none, environment, .map (runLayer template start stop record file groups)⟩ =
      .ok (runMapping template start stop record file groups) := by
  have hinput : merge (part defaults inputKey)
      [(.text "path_template", .text template), (.text "start_date", start),
        (.text "end_date", stop), (.text "record_interval", record),
        (.text "file_interval", file)] = .ok
      [(.text "path_template", .text template), (.text "start_date", start),
        (.text "end_date", stop), (.text "record_interval", record),
        (.text "file_interval", file), (.text "date_format", .text "%Y-%m-%d")] := by
    simp only [merge, Attempt.bind_eq_ok]
    exact ⟨_, layOver_of_not_map rfl rfl rfl, _, layOver_of_not_map rfl rfl rfl,
      _, layOver_of_not_map rfl rfl rfl, _, layOver_of_not_map rfl rfl rfl,
      _, layOver_of_not_map rfl rfl rfl, rfl⟩
  have hnames : Mapping.update [] (groupEntries groups) = groupEntries groups := by
    rw [Mapping.update_eq, update_of_distinct (distinct_groupEntries hgroups)]
  have htrue : (Value.map (runLayer template start stop record file groups)).isTrue = true := rfl
  unfold Layers.merged
  simp only [environmentLayer_of_unset he, merge, htrue, ↓reduceIte, Attempt.bind_eq_ok]
  refine ⟨_, rfl, _, rfl, ?_⟩
  rw [mergeLayer, runLayer, merge_cons_eq_ok]
  refine ⟨_, Attempt.bind_eq_ok.2 ⟨_, hinput, rfl⟩, ?_⟩
  rw [merge_cons_eq_ok]
  refine ⟨_, rfl, ?_⟩
  rw [hnames, merge]
  rfl

theorem givenGroups_runMapping :
    givenGroups (runMapping template start stop record file groups) =
      .map (groupEntries groups) := by
  cases groups <;> rfl

/-- What both the checks of a configuration and those of a run come down to. -/
structure Sound (template : String) (start stop record file : Value)
    (groups : List (String × Mapping)) : Prop where
  marked : Text.contains dateMark template = true
  dates : ∃ a b, parseDate "start date" start = .ok a ∧ parseDate "end date" stop = .ok b ∧ a ≤ b
  intervals : ∃ r f, parseDuration "record_interval" record = .ok r ∧
    parseDuration "file_interval" file = .ok f ∧ r.micros ≤ f.micros ∧ f.micros % r.micros = 0
  reserved : ∀ e ∈ groups, Catalog.find? (.text e.1) = none
  built : ∃ gs, SpeciesGroups.ofWeights? groups = .ok gs

theorem check_runMapping (hstart : start ≠ .null) (hstop : stop ≠ .null) :
    check (runMapping template start stop record file groups) = .ok () ↔
      Sound template start stop record file groups := by
  have hprocessing : checkProcessing (runMapping template start stop record file groups) =
    .ok () := rfl
  have hkeys : ∀ e ∈ groupEntries groups, e.1.isKey = true := fun e he => by
    obtain ⟨_, -, rfl⟩ := List.mem_map.1 he
    simp [Value.isKey]
  rw [check_eq_ok, checkInput_eq_ok, checkGroups_eq_ok]
  constructor
  · rintro ⟨⟨input, hi, ht, hr, hd⟩, -, entries, gs, he, -, hreserved, hgs⟩
    cases hi
    rw [givenGroups_runMapping] at he
    cases he
    have hgroups := exists_overriddenGroups.1 ⟨gs, hgs⟩
    exact ⟨Config.checkTemplate_text.1 ht, (checkDates_eq_ok hstart hstop).1 hd,
      checkIntervals_eq_ok.1 hr, fun e he => hreserved _ (List.mem_map_of_mem he),
      SpeciesGroups.exists_ofWeights?.2 fun e he => hgroups _ (List.mem_map_of_mem he)⟩
  · rintro ⟨ht, hd, hr, hreserved, hgroups⟩
    have hentries : ∀ e ∈ groupEntries groups, ∃ g, SpeciesGroup.ofValue? e.1 e.2 = .ok g :=
      List.forall_mem_map.2 (SpeciesGroups.exists_ofWeights?.1 hgroups)
    obtain ⟨gs, hgs⟩ :
        ∃ gs, overriddenGroups Catalog.defaultGroups (groupEntries groups) = .ok gs :=
      exists_overriddenGroups.2 hentries
    exact ⟨⟨_, rfl, Config.checkTemplate_text.2 ht, checkIntervals_eq_ok.2 hr,
      (checkDates_eq_ok hstart hstop).2 hd⟩, hprocessing, _, gs, givenGroups_runMapping, hkeys,
      List.forall_mem_map.2 hreserved, hgs⟩

theorem exists_make? : (∃ gs run, SpeciesGroups.ofWeights? groups = .ok gs ∧
    ModelRun.make? ⟨.text template, start, stop, record, file, gs⟩ = .ok run) ↔
      Sound template start stop record file groups := by
  constructor
  · rintro ⟨gs, run, hgs, hrun⟩
    obtain ⟨ht, hstart, hstop, hrecord, hfile, hreserved, -, -⟩ := ModelRun.make?_iff.1 hrun
    rw [SpeciesGroups.names_of_ofWeights? hgs, List.forall_mem_map] at hreserved
    exact ⟨GridStream.checkTemplate_text.1 ht,
      ⟨_, _, hstart, hstop, run.window.start_le_stop⟩,
      ⟨_, _, parseDuration_label _ hrecord, parseDuration_label _ hfile,
        run.window.record_le_file, run.window.whole⟩, hreserved, gs, hgs⟩
  · rintro ⟨ht, ⟨a, b, hstart, hstop, hle⟩, ⟨r, f, hrecord, hfile, hrf, hmod⟩, hreserved,
      gs, hgs⟩
    let window : Window := ⟨a, b, r, f, hle, (parseDuration_eq_ok.1 hrecord).2, hrf, hmod⟩
    refine ⟨gs, ⟨.text template, window, Catalog.defaultGroups.update gs⟩, hgs,
      ModelRun.make?_iff.2 ⟨GridStream.checkTemplate_text.2 ht, hstart, hstop,
        parseDuration_label _ hrecord, parseDuration_label _ hfile, ?_, rfl, rfl⟩⟩
    rw [SpeciesGroups.names_of_ofWeights? hgs, List.forall_mem_map]
    exact hreserved

/-! ## The run of a configuration -/

/-- A run that has what a configuration sets. -/
structure Configures (c : Configuration) (run : ModelRun) : Prop where
  template : c.get? "input.path_template" = some run.template
  start : ∃ v, c.get? "input.start_date" = some v ∧
    parseDate "start date" v = .ok run.window.start
  stop : ∃ v, c.get? "input.end_date" = some v ∧ parseDate "end date" v = .ok run.window.stop
  record : ∃ v, c.get? "input.record_interval" = some v ∧
    parseDuration "record interval" v = .ok run.window.record
  file : ∃ v, c.get? "input.file_interval" = some v ∧
    parseDuration "file interval" v = .ok run.window.file
  groups : c.groups = .ok run.groups

/-- There is but one run that has what a configuration sets. -/
theorem Configures.unique {run run' : ModelRun} (h : c.Configures run) (h' : c.Configures run') :
    run = run' := by
  obtain ⟨start, hstart, ha⟩ := h.start
  obtain ⟨stop, hstop, hb⟩ := h.stop
  obtain ⟨record, hrecord, hr⟩ := h.record
  obtain ⟨file, hfile, hf⟩ := h.file
  obtain ⟨_, hstart', ha'⟩ := h'.start
  obtain ⟨_, hstop', hb'⟩ := h'.stop
  obtain ⟨_, hrecord', hr'⟩ := h'.record
  obtain ⟨_, hfile', hf'⟩ := h'.file
  cases hstart.symm.trans hstart'
  cases hstop.symm.trans hstop'
  cases hrecord.symm.trans hrecord'
  cases hfile.symm.trans hfile'
  have htemplate := Option.some.inj (h.template.symm.trans h'.template)
  have hgroups := Except.ok.inj (h.groups.symm.trans h'.groups)
  have hmade := Window.make?_eq_ok.2 ⟨Except.ok.inj (ha.symm.trans ha'),
    Except.ok.inj (hb.symm.trans hb'), Except.ok.inj (hr.symm.trans hr'),
    Except.ok.inj (hf.symm.trans hf')⟩
  have hwindow := Except.ok.inj (hmade.symm.trans run'.window.make?_self)
  calc run = ⟨run.template, run.window, run.groups⟩ := rfl
    _ = run' := by rw [htemplate, hwindow, hgroups]

/-- The species groups that a configuration sets, and those that are in effect for it. -/
theorem exists_entries (c : Configuration) : ∃ entries gs, c.groups = .ok gs ∧
    givenGroups c.settings = .map entries ∧ (∀ e ∈ entries, e.1.isKey = true) ∧
    (∀ e ∈ entries, Catalog.find? e.1 = none) ∧
    overriddenGroups Catalog.defaultGroups entries = .ok gs := by
  obtain ⟨-, -, hgroups⟩ := check_eq_ok.1 c.checked
  obtain ⟨entries, gs, hgiven, hkeys, hreserved, hgs⟩ := checkGroups_eq_ok.1 hgroups
  refine ⟨entries, gs, ?_, hgiven, hkeys, hreserved, hgs⟩
  rw [groups, groupsOf, hgiven]
  exact hgs

theorem get?_of_input (path field : String) (hi : c.settings.get? inputKey = some (.map input))
    (hp : Text.splitAt '.' path = ["input", field]) : c.get? path = input.field? field := by
  unfold get?
  rw [hp, follow?, Mapping.field?]
  change (c.settings.get? inputKey).bind _ = _
  rw [hi, Option.bind_some, follow?]
  cases input.field? field <;> rfl

theorem require_of_get? (hget : c.get? path = some v) (hv : v ≠ .null) :
    c.require path = .ok v := by
  unfold require
  rw [hget]
  cases v <;> first | rfl | exact absurd rfl hv

/-- What names a length of time is there. -/
theorem field?_of_parseDuration {label : String} {d : Span}
    (h : parseDuration label (setting input field) = .ok d) :
    Mapping.field? input field = some (setting input field) := by
  have hnull : spanNamed? .null = none := by cbv
  unfold setting at h ⊢
  cases hf : Mapping.field? input field with
  | some v => rfl
  | none =>
    rw [hf, parseDuration_eq_ok, Option.getD_none, hnull] at h
    cases h.1

/-- A run can be made from every configuration that has a template and dates. -/
theorem exists_run (ht : c.get? "input.path_template" = some (.text template))
    (hstart : c.get? "input.start_date" = some start) (hs : start ≠ .null)
    (hstop : c.get? "input.end_date" = some stop) (he : stop ≠ .null) :
    ∃ run, c.run = .ok run ∧ c.Configures run := by
  obtain ⟨hinput, -, -⟩ := check_eq_ok.1 c.checked
  obtain ⟨input, hi, htemplate, hintervals, hdates⟩ := checkInput_eq_ok.1 hinput
  obtain ⟨entries, gs, hgroups, -, hkeys, hreserved, hgs⟩ := c.exists_entries
  obtain ⟨r, f, hrecord, hfile, hrf, hmod⟩ := checkIntervals_eq_ok.1 hintervals
  have hset : ∀ {path v} field, c.get? path = some v →
      Text.splitAt '.' path = ["input", field] → setting input field = v := fun field hget hp => by
    rw [setting, ← get?_of_input _ _ hi hp, hget, Option.getD_some]
  have hfield : ∀ field, fieldOf c.input field = Mapping.field? input field := fun field => by
    rw [fieldOf, Configuration.input, hi]
    rfl
  rw [hset "path_template" ht rfl] at htemplate
  rw [hset "start_date" hstart rfl, hset "end_date" hstop rfl] at hdates
  obtain ⟨a, b, ha, hb, hab⟩ := (checkDates_eq_ok hs he).1 hdates
  have hr := field?_of_parseDuration hrecord
  have hf := field?_of_parseDuration hfile
  let run : ModelRun := {
    template := .text template
    window := ⟨a, b, r, f, hab, (parseDuration_eq_ok.1 hrecord).2, hrf, hmod⟩
    groups := gs }
  refine ⟨run, ?_, ht, ⟨start, hstart, ha⟩, ⟨stop, hstop, hb⟩,
    ⟨_, (get?_of_input _ "record_interval" hi rfl).trans hr, parseDuration_label _ hrecord⟩,
    ⟨_, (get?_of_input _ "file_interval" hi rfl).trans hf, parseDuration_label _ hfile⟩, hgroups⟩
  have hsettings : c.runSettings = .ok ⟨.text template, start, stop,
      setting input "record_interval", setting input "file_interval", gs⟩ := by
    unfold runSettings
    rw [require_of_get? ht (by simp), require_of_get? hstart hs, require_of_get? hstop he, hgroups,
      hfield, hfield, hr, hf]
    rfl
  refine Attempt.bind_eq_ok.2 ⟨_, hsettings, ModelRun.make?_iff.2
    ⟨GridStream.checkTemplate_text.2 (Config.checkTemplate_text.1 htemplate), ha, hb,
      parseDuration_label _ hrecord, parseDuration_label _ hfile, ?_, rfl,
      (update_overriddenGroups hkeys hgs).symm⟩⟩
  refine List.forall_mem_map.2 fun e he => ?_
  exact forall_name_overriddenGroups (P := fun name => Catalog.find? name = none)
    Catalog.find?_of_mem_defaultGroups hreserved hgs e he

/-- A configuration is accepted just if a run can be made from what it sets, and a run can be made
from every configuration that has a template and dates, with what the configuration sets. -/
theorem accepted_iff_makes (he : Unset environment) (hstart : start ≠ .null)
    (hstop : stop ≠ .null) (hgroups : (groups.map Prod.fst).Nodup) :
    ((∃ c, ofLayers? ⟨none, environment,
        .map (runLayer template start stop record file groups)⟩ = .ok c) ↔
      ∃ gs run, SpeciesGroups.ofWeights? groups = .ok gs ∧
        ModelRun.make? ⟨.text template, start, stop, record, file, gs⟩ = .ok run) ∧
    ∀ (c : Configuration) template start stop,
      c.get? "input.path_template" = some (.text template) →
      c.get? "input.start_date" = some start → start ≠ .null →
      c.get? "input.end_date" = some stop → stop ≠ .null →
      ∃ run, c.run = .ok run ∧ c.Configures run := by
  refine ⟨?_, fun _ _ _ _ ht hs hs' he he' => exists_run ht hs hs' he he'⟩
  rw [exists_make?, ← check_runMapping hstart hstop, ← exists_ofSettings?]
  unfold ofLayers?
  rw [merged_runLayer he hgroups]
  rfl

def sampleWeights : List (String × Mapping) := [("sox", [(.text "SO4", .int 2)])]

/-- The settings of one day, with the first date as a number, a species group, and an environment
that is about something else. -/
theorem accepted_iff_makes_sample : Unset [("HOME", "/root")] ∧ ∃ c run,
    ofLayers? ⟨none, [("HOME", "/root")], .map (runLayer "d_[DATE].nc" (.int 20050101)
      (.text "20050102") (.text "1h") (.text "24h") sampleWeights)⟩ = .ok c ∧
    c.run = .ok run ∧ c.Configures run ∧ run.window.record = .hours 1 := by
  have he : Unset [("HOME", "/root")] := by
    simp [Unset, environmentNames]
  obtain ⟨hiff, hruns⟩ := @accepted_iff_makes (.int 20050101) (.text "20050102") (.text "1h")
    (.text "24h") [("HOME", "/root")] "d_[DATE].nc" sampleWeights he nofun nofun
    (by simp [sampleWeights])
  have hstart : parseDate "start date" (.int 20050101) =
    .ok ⟨63240134400000000, by decide⟩ := by rfl
  have hstop : parseDate "end date" (.text "20050102") =
    .ok ⟨63240220800000000, by decide⟩ := by rfl
  have hgroups : SpeciesGroups.ofWeights? sampleWeights = .ok
    [(.text "sox", ⟨.text "sox", [("SO4", .int 2)], ""⟩)] := by rfl
  obtain ⟨c, hc⟩ := hiff.2 (exists_make?.2 ⟨by rfl, ⟨_, _, hstart, hstop, by decide⟩,
    ⟨_, _, parseDuration_hour, parseDuration_day, by decide, by decide⟩,
    by simp [sampleWeights, Catalog.find?, Catalog.quantities], _, hgroups⟩)
  have hsettings : c.settings = runMapping "d_[DATE].nc" (.int 20050101) (.text "20050102")
      (.text "1h") (.text "24h") sampleWeights := by
    obtain ⟨settings, hm, hs⟩ := Attempt.bind_eq_ok.1 hc
    rw [merged_runLayer he (by simp [sampleWeights])] at hm
    cases hm
    exact settings_of_ofSettings? hs
  have hinput : c.settings.get? inputKey = some (.map
      [(.text "path_template", .text "d_[DATE].nc"), (.text "start_date", .int 20050101),
        (.text "end_date", .text "20050102"), (.text "record_interval", .text "1h"),
        (.text "file_interval", .text "24h"), (.text "date_format", .text "%Y-%m-%d")]) := by
    rw [hsettings]
    rfl
  obtain ⟨run, hrun, hconf⟩ := hruns c "d_[DATE].nc" (.int 20050101) (.text "20050102")
    (get?_of_input _ "path_template" hinput rfl) (get?_of_input _ "start_date" hinput rfl) nofun
    (get?_of_input _ "end_date" hinput rfl) nofun
  refine ⟨he, c, run, hc, hrun, hconf, ?_⟩
  have hget : c.get? "input.record_interval" = some (.text "1h") :=
    get?_of_input _ "record_interval" hinput rfl
  obtain ⟨v, hv, hr⟩ := hconf.record
  rw [hget] at hv
  cases hv
  exact Except.ok.inj (hr.symm.trans parseDuration_hour)

end Configuration

end GridStream
