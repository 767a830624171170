import GridStream.Command.Listing
import GridStream.Proofs.ModelRun.Places
import GridStream.Proofs.ModelRun.Sources

/-!
# The list of quantities

The catalogue lists just the names that a run knows, each of them once, and describes them by what
the run reads (`ModelRun.Described`). So the list of quantities gets to its end whatever the species
groups of the configuration are, and what it shows as the sources of a quantity is what will be read
(`Command.listing_agrees`).
-/

namespace GridStream

variable {c : Configuration} {gs : SpeciesGroups} {run : ModelRun}

namespace Config

variable {out : SpeciesGroups} {entries : List (Value × Value)}

theorem readable_overriddenGroups (hgs : ∀ e ∈ gs, e.2.Readable)
    (h : overriddenGroups gs entries = .ok out) : ∀ e ∈ out, e.2.Readable := by
  induction entries generalizing gs with
  | nil =>
    cases h
    exact hgs
  | cons e rest ih =>
    obtain ⟨g, hg, h⟩ := Attempt.bind_eq_ok.1 h
    rw [SpeciesGroups.put_eq] at h
    exact ih (Entries.forall_value_put hgs (SpeciesGroup.readable_of_ofValue? hg)) h

end Config

namespace Configuration

/-- The groups of a configuration have names of their own if those that it overrides are texts. -/
theorem nameable_groups (hgs : c.groups = .ok gs) (h : ∀ v ∈ c.overriddenNames, ∃ s, v = .text s) :
    Nameable gs := by
  obtain ⟨entries, gs', hgs', hgiven, hkeys, hreserved, hout⟩ := c.exists_entries
  cases hgs.symm.trans hgs'
  have htext : ∀ e ∈ entries, ∃ s, e.1 = .text s := fun e he => by
    rw [overriddenNames, hgiven] at h
    exact h e.1 (List.mem_map_of_mem he)
  exact ⟨Config.forall_name_overriddenGroups (P := fun v => ∃ s, v = .text s)
      Catalog.exists_text_of_mem_defaultGroups htext hout,
    Config.distinct_overriddenGroups Catalog.distinct_defaultGroups hkeys hout,
    Config.forall_name_overriddenGroups (P := fun v => Catalog.find? v = none)
      Catalog.find?_of_mem_defaultGroups hreserved hout,
    Config.readable_overriddenGroups Catalog.readable_of_mem_defaultGroups hout⟩

theorem groups_of_run (hrun : c.run = .ok run) : c.groups = .ok run.groups := by
  obtain ⟨settings, hs, hrun⟩ := Attempt.bind_eq_ok.1 hrun
  obtain ⟨entries, gs, hgs, -, hkeys, -, hout⟩ := c.exists_entries
  have hsettings : settings.groups = gs := by
    simp only [runSettings, Attempt.bind_eq_ok] at hs
    obtain ⟨_, -, _, -, _, -, gs', hgs', hs⟩ := hs
    cases hs
    exact Except.ok.inj (hgs'.symm.trans hgs)
  obtain ⟨-, -, -, -, -, -, -, hgroups⟩ := ModelRun.make?_iff.1 hrun
  rw [hgroups, hsettings, Config.update_overriddenGroups hkeys hout, hgs]

end Configuration

namespace Command

variable {groups : SpeciesGroups} {d : Catalog.Description} {s : String} {files : FolderTree}

/-- The two lines about a quantity. -/
def entryLines (s : String) (d : Catalog.Description) : List String :=
  let column := Text.padRight nameWidth s
  let sources := String.intercalate ", " d.sources
  let blank := Text.padRight nameWidth ""
  [s!"  {column} [{d.units}]  <- {sources}",
    s!"  {blank} {d.description}"]

theorem quantityLines_text (h : Catalog.describe groups (.text s) = .ok d) :
    quantityLines groups (.text s) = .ok (entryLines s d) := by
  rw [quantityLines, h]
  rfl

/-- Quantities that can be described are listed one after the other. -/
theorem listFrom_texts {entries : List (String × Catalog.Description)}
    (h : ∀ e ∈ entries, Catalog.describe groups (.text e.1) = .ok e.2) :
    listFrom groups (entries.map fun e => .text e.1) =
      (entries.flatMap fun e => entryLines e.1 e.2, .ok 0) := by
  induction entries with
  | nil => rfl
  | cons e entries ih =>
    rw [List.forall_mem_cons] at h
    rw [List.map_cons, listFrom, quantityLines_text h.1, List.flatMap_cons]
    dsimp only
    rw [ih h.2]

/-- Every name that is listed has a description. -/
theorem exists_descriptions (h : Nameable groups) {names : List Value}
    (hnames : ∀ v ∈ names, v ∈ Catalog.allNames groups) :
    ∃ entries : List (String × Catalog.Description), entries.map (fun e => .text e.1) = names ∧
      ∀ e ∈ entries, Catalog.describe groups (.text e.1) = .ok e.2 := by
  induction names with
  | nil => exact ⟨[], rfl, by simp⟩
  | cons v names ih =>
    rw [List.forall_mem_cons] at hnames
    obtain ⟨entries, rfl, hentries⟩ := ih hnames.2
    obtain ⟨s, rfl⟩ := h.exists_text hnames.1
    obtain ⟨d, hd⟩ := Catalog.exists_describe h hnames.1
    exact ⟨(s, d) :: entries, rfl, List.forall_mem_cons.2 ⟨hd, hentries⟩⟩

/-- The list of quantities has an entry for each name. -/
theorem listConfigured_eq (hgs : c.groups = .ok gs)
    {entries : List (String × Catalog.Description)}
    (hnames : entries.map (fun e => Value.text e.1) = Catalog.allNames gs)
    (hentries : ∀ e ∈ entries, Catalog.describe gs (.text e.1) = .ok e.2) :
    listConfigured files c =
      { ending := .ok 0, printed := listHead ++ entries.flatMap fun e => entryLines e.1 e.2
        files } := by
  unfold listConfigured
  rw [hgs]
  dsimp only
  rw [← hnames, listFrom_texts hentries]

/-- Whatever a configuration comes from: what is listed for it is described, and read by the run
that is made from it. -/
theorem listConfigured_agrees (files : FolderTree)
    (htext : ∀ v ∈ c.overriddenNames, ∃ t, v = .text t) :
    ∃ gs, c.groups = .ok gs ∧ ∃ entries : List (String × Catalog.Description),
      entries.map (fun e => Value.text e.1) = Catalog.allNames gs ∧
      (∀ e ∈ entries, Catalog.describe gs (.text e.1) = .ok e.2) ∧
      listConfigured files c =
        { ending := .ok 0, printed := listHead ++ entries.flatMap fun e => entryLines e.1 e.2
          files } ∧
      ∀ run, c.run = .ok run → run.groups = gs ∧
        ∀ w, ∀ e ∈ entries, run.ReadsSources w e.1 := by
  obtain ⟨gs, hgs⟩ := c.exists_groups
  have h := Configuration.nameable_groups hgs htext
  obtain ⟨entries, hnames, hentries⟩ := exists_descriptions h fun v hv => hv
  refine ⟨gs, hgs, entries, hnames, hentries, listConfigured_eq hgs hnames hentries,
    fun run hrun => ?_⟩
  obtain rfl : run.groups = gs :=
    Except.ok.inj ((Configuration.groups_of_run hrun).symm.trans hgs)
  refine ⟨rfl, fun w e he => ModelRun.readsSources_of_mem h w ?_⟩
  rw [← hnames]
  exact List.mem_map_of_mem he

theorem listQuantities_of_load {s : Surroundings} {config : Value}
    (hc : s.load config .null = .ok c) :
    listQuantities s config = listConfigured s.files c := by
  rw [listQuantities, hc]

/-- What a run can produce, what the catalogue describes and what is listed are the same, whatever
the species groups are. -/
theorem listing_agrees :
    (∀ (settings : RunSettings) (run : ModelRun), ModelRun.make? settings = .ok run →
      (∀ e ∈ settings.groups, ∃ s, e.1 = .text s) →
      (∀ e ∈ settings.groups, ∃ name members units,
        SpeciesGroup.make? name members units = .ok e.2) →
      (Catalog.allNames run.groups).Nodup ∧
      ∀ (w : World) (s : String),
        (NoKey (run.producer w (.text s)) ↔ .text s ∉ Catalog.allNames run.groups) ∧
        (NoKey (Catalog.describe run.groups (.text s)) ↔ .text s ∉ Catalog.allNames run.groups) ∧
        (.text s ∈ Catalog.allNames run.groups → run.ReadsSources w s)) ∧
    ∀ (s : Surroundings) (config : Value) (c : Configuration),
      s.load config .null = .ok c →
      (∀ v ∈ c.overriddenNames, ∃ t, v = .text t) →
      ∃ gs, c.groups = .ok gs ∧ ∃ entries : List (String × Catalog.Description),
        entries.map (fun e => Value.text e.1) = Catalog.allNames gs ∧
        (∀ e ∈ entries, Catalog.describe gs (.text e.1) = .ok e.2) ∧
        listQuantities s config =
          { ending := .ok 0, printed := listHead ++ entries.flatMap fun e => entryLines e.1 e.2
            files := s.files } ∧
        ∀ run, c.run = .ok run → run.groups = gs ∧
          ∀ w, ∀ e ∈ entries, run.ReadsSources w e.1 := by
  refine ⟨fun settings run hrun htext hgroups => ?_, fun s config c hc htext => ?_⟩
  · have h := ModelRun.nameable_of_make? hrun htext fun e he => by
      obtain ⟨name, members, units, hg⟩ := hgroups e he
      exact SpeciesGroup.readable_of_make? hg
    refine ⟨h.nodup_allNames, fun w s => ?_⟩
    obtain ⟨hproducer, hdescribe⟩ := ModelRun.noKey_iff h w s
    exact ⟨hproducer, hdescribe, ModelRun.readsSources_of_mem h w⟩
  · rw [listQuantities_of_load hc]
    exact listConfigured_agrees s.files htext

/-- A run with a group of two variables in place of a default one. -/
def sampleSettings : RunSettings :=
  { ModelRun.sampleSettings (.hours 24) with
    groups := [(.text "sox", ⟨.text "sox", [("SO4", .int 2), ("gS", .int 1)], ""⟩)] }

def sampleRun : ModelRun :=
  { ModelRun.sampleRun (.hours 24) (by decide) (by decide) with
    groups := Catalog.defaultGroups.update sampleSettings.groups }

theorem make?_sampleSettings : ModelRun.make? sampleSettings = .ok sampleRun := by
  have h : ModelRun.make? (ModelRun.sampleSettings (.hours 24)) = _ :=
    ModelRun.make?_sampleSettings (by decide) (by decide)
  obtain ⟨ht, hstart, hstop, hrecord, hfile, -, -, -⟩ := ModelRun.make?_iff.1 h
  refine ModelRun.make?_iff.2 ⟨ht, hstart, hstop, hrecord, hfile, ?_, rfl, rfl⟩
  simp [sampleSettings, SpeciesGroups.names, Catalog.find?, Catalog.quantities]

/-- What is read for the group are its two variables; and the quantities of a configuration that
sets nothing are listed to the end. -/
theorem listing_agrees_sample :
    (∃ p w d, sampleRun.producer {} (.text "sox") = .ok (p, w) ∧
      Catalog.describe sampleRun.groups (.text "sox") = .ok d ∧
      (p.leaves.map Leaf.name).Perm ["SO4", "gS"]) ∧
    (listQuantities {} .null).ending = .ok 0 := by
  obtain ⟨hruns, hlists⟩ := listing_agrees
  constructor
  · have htext : ∀ e ∈ sampleSettings.groups, ∃ s, e.1 = .text s := by
      simp [sampleSettings]
    have hgroups : ∀ e ∈ sampleSettings.groups, ∃ name members units,
        SpeciesGroup.make? name members units = .ok e.2 := by
      simp only [sampleSettings, List.mem_singleton, forall_eq]
      exact ⟨.text "sox", [(.text "SO4", .int 2), (.text "gS", .int 1)], "", rfl⟩
    obtain ⟨-, h⟩ := hruns _ _ make?_sampleSettings htext hgroups
    obtain ⟨-, -, hreads⟩ := h {} "sox"
    have hnames : sampleRun.groups.names = Catalog.defaultGroups.names := rfl
    have hmem : Value.text "sox" ∈ Catalog.allNames sampleRun.groups :=
      List.mem_append_right _ (by
        rw [hnames]
        simp [SpeciesGroups.names, Catalog.defaultGroups, Catalog.defaultMembers])
    have hget : sampleRun.groups.get? (.text "sox") =
      some ⟨.text "sox", [("SO4", .int 2), ("gS", .int 1)], ""⟩ := rfl
    have hdescribe := Catalog.describe_group hget rfl
    obtain ⟨p, w, d, hp, hd, hperm, -⟩ := hreads hmem
    refine ⟨p, w, d, hp, hd, ?_⟩
    cases hd.symm.trans hdescribe
    exact hperm
  · obtain ⟨c, hc, hnames⟩ : ∃ c, Surroundings.load {} .null .null = .ok c ∧
        c.overriddenNames = [] := by
      obtain ⟨c, hc⟩ := Configuration.exists_ofSettings?.2 Config.check_defaults
      refine ⟨c, hc, ?_⟩
      rw [Configuration.overriddenNames, Configuration.settings_of_ofSettings? hc]
      rfl
    obtain ⟨gs, -, entries, -, -, hlist, -⟩ := hlists {} .null c hc (by simp [hnames])
    rw [hlist]

end Command

end GridStream
