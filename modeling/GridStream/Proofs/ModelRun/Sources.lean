import GridStream.ModelRun
import GridStream.Proofs.Config.Agreement
import GridStream.Proofs.ModelRun.Accessor

/-!
# What a quantity is read from

A run can produce just the quantities that the catalogue lists for its species groups, and the
catalogue describes the same ones. The leaves of what is produced read the variables that the
description has as sources, one leaf each (`ModelRun.describes`).
-/

namespace GridStream

/-- The stored variables of a formula, in the order in which they are read. -/
def Formula.variables : Formula → List String
  | .stored name => [name]
  | .derived _ _ left right => left.variables ++ right.variables
  | .remapped _ _ source => [source]

namespace SpeciesGroup

variable {name v : Value} {units : String} {g : SpeciesGroup} {seen : List String}

/-- A group that can be read: it has variables, which differ from each other. -/
structure Readable (g : SpeciesGroup) : Prop where
  nonempty : g.memberNames ≠ []
  nodup : g.memberNames.Nodup

theorem not_mem_of_checkMember {member weight : Value} {checked : String × Weight}
    (h : checkMember name seen member weight = .ok checked) : checked.1 ∉ seen := by
  unfold checkMember checkMember.badName at h
  split at h
  · split at h
    · cases h
    · split at h
      · cases h
      · next hseen =>
        obtain ⟨w?, -, h⟩ := Attempt.bind_eq_ok.1 h
        split at h
        · cases h
          exact hseen
        · cases h
  · cases h

/-- Members that pass the checks behind others have other names, and differ from each other. -/
theorem nodup_of_checkMembers {entries : List (Value × Value)} {members : List (String × Weight)}
    (h : checkMembers name seen entries = .ok members) :
    (members.map (·.1)).Nodup ∧ ∀ s ∈ members.map (·.1), s ∉ seen := by
  induction entries generalizing seen members with
  | nil =>
    cases h
    simp
  | cons e rest ih =>
    obtain ⟨checked, hc, h⟩ := Attempt.bind_eq_ok.1 h
    obtain ⟨others, ho, h⟩ := Attempt.bind_eq_ok.1 h
    cases h
    obtain ⟨hnodup, hseen⟩ := ih ho
    rw [List.map_cons, List.nodup_cons, List.forall_mem_cons]
    refine ⟨⟨fun hmem => hseen _ hmem List.mem_cons_self, hnodup⟩,
      not_mem_of_checkMember hc, fun s hs hmem => hseen s hs (List.mem_cons_of_mem _ hmem)⟩

theorem readable_of_make? {members : List (Value × Value)} (h : make? name members units = .ok g) :
    g.Readable := by
  unfold make? at h
  split at h
  · cases h
  · next hne =>
    obtain ⟨checked, hc, h⟩ := Attempt.bind_eq_ok.1 h
    cases h
    refine ⟨fun hnil => hne ?_, (nodup_of_checkMembers hc).1⟩
    have hnil : checked = [] := List.map_eq_nil_iff.1 hnil
    rw [checkMembers_eq_ok hc, hnil, List.map_nil]

theorem readable_of_ofValue? (h : ofValue? name v units = .ok g) : g.Readable := by
  unfold ofValue? at h
  split at h
  · exact readable_of_make? h
  · cases h

end SpeciesGroup

namespace Catalog

variable {groups : SpeciesGroups} {q : Quantity} {s : String}

theorem readable_of_mem_defaultGroups : ∀ e ∈ defaultGroups, e.2.Readable := by
  intro e he
  obtain ⟨⟨name, member⟩, -, rfl⟩ := List.mem_map.1 he
  exact ⟨by simp [SpeciesGroup.memberNames], by simp [SpeciesGroup.memberNames]⟩

theorem exists_text_of_mem_defaultGroups : ∀ e ∈ defaultGroups, ∃ s, e.1 = .text s := by
  intro e he
  obtain ⟨⟨name, member⟩, -, rfl⟩ := List.mem_map.1 he
  exact ⟨name, rfl⟩

/-- The sources of a quantity are the variables of its formula. -/
theorem variables_perm_sources : ∀ q ∈ quantities,
    q.formula.variables.Perm q.sources ∧ q.sources.Nodup := by
  simp [quantities, Formula.variables, pressure, temperature, height, radiation]
  decide

theorem nodup_names : names.Nodup := by decide

theorem find?_eq_none : find? (.text s) = none ↔ s ∉ names := by
  simp [find?, names]

end Catalog

namespace ModelRun

variable {g : SpeciesGroup}

theorem names_leavesAll_readAll (run : ModelRun) (w : World) (names : List String) :
    (Producer.leavesAll (run.readAll w names).1).map Leaf.name = names := by
  induction names generalizing w with
  | nil => simp [readAll]
  | cons name names ih => simp [readAll, read, World.addRaw, World.addSlot, ih]

theorem names_leaves_produce (run : ModelRun) (w : World) (f : Formula) :
    (run.produce w f).1.leaves.map Leaf.name = f.variables := by
  induction f generalizing w with
  | stored name => rfl
  | derived name derivation left right ihl ihr =>
    simp [produce, World.join, Formula.variables, ihl, ihr]
  | remapped name table source => rfl

/-- A group with variables can be read, each of them by one leaf. -/
theorem exists_readGroup (run : ModelRun) (w : World) (hg : g.memberNames ≠ []) :
    ∃ p w', run.readGroup w g = .ok (p, w') ∧ p.leaves.map Leaf.name = g.memberNames := by
  have hnames := run.names_leavesAll_readAll w g.memberNames
  unfold readGroup
  rcases hr : run.readAll w g.memberNames with ⟨_ | ⟨first, others⟩, w₁⟩
  · rw [hr] at hnames
    exact absurd hnames.symm hg
  · rw [hr] at hnames
    exact ⟨_, _, rfl, by simpa only [World.join, Producer.leaves_combined] using hnames⟩

end ModelRun

/-- Species groups under texts that no quantity has as its name, all of which can be read. -/
structure Nameable (groups : SpeciesGroups) : Prop where
  text : ∀ e ∈ groups, ∃ s, e.1 = .text s
  distinct : Entries.Distinct groups
  free : ∀ e ∈ groups, Catalog.find? e.1 = none
  readable : ∀ e ∈ groups, e.2.Readable

namespace Nameable

variable {groups : SpeciesGroups}

/-- No name is listed twice. -/
theorem nodup_allNames (h : Nameable groups) : (Catalog.allNames groups).Nodup := by
  refine List.nodup_append.2 ⟨?_, ?_, ?_⟩
  · exact List.pairwise_map.2 (Catalog.nodup_names.imp fun hab heq => hab (Value.text.inj heq))
  · refine List.pairwise_map.2 (h.distinct.pairwise.imp_of_mem fun {e f} he _ hef heq => ?_)
    obtain ⟨s, hs⟩ := h.text e he
    rw [← heq, hs] at hef
    simp [Value.same] at hef
  · rintro a ha b hb rfl
    obtain ⟨s, hs, rfl⟩ := List.mem_map.1 ha
    obtain ⟨e, he, hes⟩ := List.mem_map.1 hb
    exact Catalog.find?_eq_none.1 (hes ▸ h.free e he) hs

end Nameable

/-- What a name stands for: a species group, a quantity of the catalogue, or nothing. -/
inductive Lookup (groups : SpeciesGroups) (s : String) : Prop
  | group (g : SpeciesGroup) (mem : .text s ∈ Catalog.allNames groups)
    (get : groups.get? (.text s) = some g) (find : Catalog.find? (.text s) = none)
    (readable : g.Readable)
  | quantity (q : Quantity) (mem : .text s ∈ Catalog.allNames groups)
    (get : groups.get? (.text s) = none) (find : Catalog.find? (.text s) = some q)
  | unknown (not_mem : .text s ∉ Catalog.allNames groups) (get : groups.get? (.text s) = none)
    (find : Catalog.find? (.text s) = none)

/-- Groups that can be read and that no quantity has the name of leave no other outcome. -/
theorem Lookup.of_readable {groups : SpeciesGroups}
    (hfree : ∀ e ∈ groups, Catalog.find? e.1 = none) (hreadable : ∀ e ∈ groups, e.2.Readable)
    (s : String) : Lookup groups s := by
  have hmem : Value.text s ∈ Catalog.allNames groups ↔
      s ∈ Catalog.names ∨ Value.text s ∈ groups.names := by
    simp [Catalog.allNames]
  have hnone : groups.get? (.text s) = none ↔ Value.text s ∉ groups.names :=
    Entries.get?_text_eq_none
  cases hget : groups.get? (.text s) with
  | some g =>
    -- A group of this name stands for no quantity, so it does not matter which is tried first.
    obtain ⟨e, he, hes, rfl⟩ := Entries.mem_of_get? hget
    have ht : e.1 = .text s := Value.same_text.1 hes
    exact .group e.2 (hmem.2 (.inr (List.mem_map.2 ⟨e, he, ht⟩))) hget (ht ▸ hfree e he)
      (hreadable e he)
  | none =>
    cases hfind : Catalog.find? (.text s) with
    | some q =>
      have hs : s ∈ Catalog.names := Decidable.not_not.1 fun hs => by
        rw [Catalog.find?_eq_none.2 hs] at hfind
        cases hfind
      exact .quantity q (hmem.2 (.inl hs)) hget hfind
    | none =>
      exact .unknown (hmem.not.2 (not_or.2 ⟨Catalog.find?_eq_none.1 hfind, hnone.1 hget⟩)) hget
        hfind

namespace Nameable

variable {groups : SpeciesGroups}

theorem lookup (h : Nameable groups) (s : String) : Lookup groups s :=
  .of_readable h.free h.readable s

theorem exists_text (h : Nameable groups) {v : Value} (hv : v ∈ Catalog.allNames groups) :
    ∃ s, v = .text s := by
  rcases List.mem_append.1 hv with hv | hv
  · obtain ⟨s, -, rfl⟩ := List.mem_map.1 hv
    exact ⟨s, rfl⟩
  · obtain ⟨e, he, rfl⟩ := List.mem_map.1 hv
    exact h.text e he

end Nameable

theorem checkKey_text (s : String) : (Value.text s).checkKey = .ok () := by
  simp [Value.checkKey, Value.isKey]

/-- Whether an attempt fails since a key is missing. -/
def NoKey {α : Type} (a : Attempt α) : Prop := ∃ f, a = .error f ∧ f.kind = .foreign "KeyError"

namespace Catalog

variable {groups : SpeciesGroups} {s : String} {g : SpeciesGroup} {q : Quantity}

theorem describe_group (hget : groups.get? (.text s) = some g) (hfind : find? (.text s) = none) :
    describe groups (.text s) = .ok ⟨g.memberNames, g.units,
      "Weighted sum of " ++ String.intercalate ", " g.memberNames⟩ := by
  rw [describe, checkKey_text, hfind, hget]
  rfl

theorem describe_quantity (hfind : find? (.text s) = some q) :
    describe groups (.text s) = .ok ⟨q.sources, q.units, q.description⟩ := by
  rw [describe, checkKey_text, hfind]
  rfl

theorem noKey_describe (hget : groups.get? (.text s) = none) (hfind : find? (.text s) = none) :
    NoKey (describe groups (.text s)) := by
  rw [describe, checkKey_text, hfind, hget]
  exact ⟨_, rfl, rfl⟩

theorem exists_describe (h : Nameable groups) (hs : .text s ∈ allNames groups) :
    ∃ d, describe groups (.text s) = .ok d := by
  cases h.lookup s with
  | group g _ hget hfind => exact ⟨_, describe_group hget hfind⟩
  | quantity q _ _ hfind => exact ⟨_, describe_quantity hfind⟩
  | unknown hne => exact absurd hs hne

end Catalog

namespace ModelRun

variable {settings : RunSettings} {run : ModelRun} {w : World} {s : String} {g : SpeciesGroup}
  {q : Quantity}

/-- What a run makes of a name, and what the catalogue says about it: the leaves read just the
sources, one leaf each. -/
def ReadsSources (run : ModelRun) (w : World) (s : String) : Prop :=
  ∃ p w' d, run.producer w (.text s) = .ok (p, w') ∧
    Catalog.describe run.groups (.text s) = .ok d ∧
    (p.leaves.map Leaf.name).Perm d.sources ∧ d.sources.Nodup

theorem exists_mapM_text? {names : List Value} (h : ∀ v ∈ names, ∃ s, v = .text s) :
    ∃ texts, names.mapM Value.text? = some texts := by
  refine Option.isSome_iff_exists.1 (Attempt.isSome_mapM_iff.2 fun v hv => ?_)
  obtain ⟨s, rfl⟩ := h v hv
  rfl

theorem noKey_producer (h : ∀ e ∈ run.groups, ∃ t, e.1 = .text t)
    (hget : run.groups.get? (.text s) = none) (hfind : Catalog.find? (.text s) = none) :
    NoKey (run.producer w (.text s)) := by
  obtain ⟨texts, ht⟩ := exists_mapM_text? (List.forall_mem_map.2 h)
  rw [producer, checkKey_text, hget, hfind, SpeciesGroups.names, ht]
  exact ⟨_, rfl, rfl⟩

theorem readsSources_of_mem (h : Nameable run.groups) (w : World)
    (hs : .text s ∈ Catalog.allNames run.groups) : run.ReadsSources w s := by
  cases h.lookup s with
  | group g _ hget hfind hr =>
    obtain ⟨p, w', hp, hleaves⟩ := run.exists_readGroup w hr.nonempty
    refine ⟨p, w', _, ?_, Catalog.describe_group hget hfind, .of_eq hleaves, hr.nodup⟩
    rw [producer, checkKey_text, hget]
    exact hp
  | quantity q _ hget hfind =>
    obtain ⟨hperm, hnodup⟩ := Catalog.variables_perm_sources q (Catalog.mem_of_find? hfind)
    refine ⟨(run.produce w q.formula).1, (run.produce w q.formula).2, _, ?_,
      Catalog.describe_quantity hfind, ?_, hnodup⟩
    · rw [producer, checkKey_text, hget, hfind]
      rfl
    · rwa [names_leaves_produce]
  | unknown hne => exact absurd hs hne

/-- A run knows the names that are listed for its groups, and the catalogue describes the same
ones. -/
theorem noKey_iff (h : Nameable run.groups) (w : World) (s : String) :
    (NoKey (run.producer w (.text s)) ↔ .text s ∉ Catalog.allNames run.groups) ∧
      (NoKey (Catalog.describe run.groups (.text s)) ↔
        .text s ∉ Catalog.allNames run.groups) := by
  by_cases hs : .text s ∈ Catalog.allNames run.groups
  · obtain ⟨p, w', d, hp, hd, -⟩ := readsSources_of_mem h w hs
    rw [hp, hd]
    simp [NoKey, hs]
  · cases h.lookup s with
    | group _ hmem => exact absurd hmem hs
    | quantity _ hmem => exact absurd hmem hs
    | unknown _ hget hfind =>
      exact ⟨iff_of_true (noKey_producer h.text hget hfind) hs,
        iff_of_true (Catalog.noKey_describe hget hfind) hs⟩

/-- Making a run keeps the names and groups that it is made with. -/
theorem nameable_of_make? (hrun : make? settings = .ok run)
    (htext : ∀ e ∈ settings.groups, ∃ s, e.1 = .text s)
    (hreadable : ∀ e ∈ settings.groups, e.2.Readable) : Nameable run.groups := by
  obtain ⟨-, -, -, -, -, hreserved, -, hgroups⟩ := make?_iff.1 hrun
  rw [SpeciesGroups.names, List.forall_mem_map] at hreserved
  rw [hgroups, SpeciesGroups.update_eq]
  have hkeys : ∀ e ∈ settings.groups, e.1.isKey = true := fun e he => by
    obtain ⟨s, hs⟩ := htext e he
    simp [hs, Value.isKey]
  exact ⟨Entries.forall_key_update (P := fun v => ∃ s, v = .text s)
      Catalog.exists_text_of_mem_defaultGroups htext,
    Entries.distinct_update Catalog.distinct_defaultGroups hkeys,
    Entries.forall_key_update (P := fun v => Catalog.find? v = none)
      Catalog.find?_of_mem_defaultGroups hreserved,
    Entries.forall_value_update Catalog.readable_of_mem_defaultGroups hreadable⟩

end ModelRun

end GridStream
