import GridStream.Config.Basic
import GridStream.Proofs.Attempt
import GridStream.Proofs.Value.Mapping

/-!
# The species groups in effect

A group that is built from a mapping has the members of the mapping, in its order and with its
weights (`SpeciesGroup.ofValue?_eq_ok`). The groups in effect are those that the settings name, each
with the units of the default group of its name, and all other default groups as they are
(`Config.get?_overriddenGroups`).
-/

namespace GridStream
open Entries

/-- The members of a group as they were given. -/
def SpeciesGroup.entries (g : SpeciesGroup) : Mapping :=
  g.members.map fun (v, weight) => (.text v, weight.toValue)

theorem Weight.ofValue?_eq_ok {v : Value} {w : Weight} (h : ofValue? v = .ok (some w)) :
    w.toValue = v := by
  unfold ofValue? at h
  split at h
  · split at h <;> cases h
    rfl
  · split at h <;> cases h
    rfl
  · cases h

namespace SpeciesGroup

variable {name member weight : Value} {seen : List String} {units : String} {g : SpeciesGroup}

theorem checkMember_eq_ok {s : String} {w : Weight}
    (h : checkMember name seen member weight = .ok (s, w)) :
    member = .text s ∧ weight = w.toValue := by
  unfold checkMember checkMember.badName at h
  split at h
  · split at h
    · cases h
    · split at h
      · cases h
      · obtain ⟨w?, hw, h⟩ := Attempt.bind_eq_ok.1 h
        split at h
        · cases h
          exact ⟨rfl, (Weight.ofValue?_eq_ok hw).symm⟩
        · cases h
  · cases h

theorem checkMembers_eq_ok {entries : List (Value × Value)} {members : List (String × Weight)}
    (h : checkMembers name seen entries = .ok members) :
    entries = members.map fun (v, weight) => (.text v, weight.toValue) := by
  induction entries generalizing seen members with
  | nil =>
    cases h
    rfl
  | cons e rest ih =>
    obtain ⟨member, weight⟩ := e
    obtain ⟨⟨s, w⟩, hs, h⟩ := Attempt.bind_eq_ok.1 h
    obtain ⟨others, ho, h⟩ := Attempt.bind_eq_ok.1 h
    cases h
    obtain ⟨rfl, rfl⟩ := checkMember_eq_ok hs
    rw [List.map_cons, ← ih ho]

theorem ofValue?_eq_ok {v : Value} (h : ofValue? name v units = .ok g) :
    g.name = name ∧ g.units = units ∧ v = .map g.entries := by
  unfold ofValue? make? at h
  split at h
  · split at h
    · cases h
    · obtain ⟨members, hm, h⟩ := Attempt.bind_eq_ok.1 h
      cases h
      exact ⟨rfl, rfl, by rw [entries, ← checkMembers_eq_ok hm]⟩
  · cases h

end SpeciesGroup

namespace SpeciesGroups

variable {gs : SpeciesGroups} {key : Value} {g : SpeciesGroup}

theorem get?_eq : gs.get? key = Entries.get? gs key := rfl

theorem put_eq : gs.put key g = Entries.put gs key g := by
  induction gs with
  | nil => rfl
  | cons e gs ih => rw [put, Entries.put, ih]

end SpeciesGroups

namespace Config

variable {gs out : SpeciesGroups} {entries : List (Value × Value)}

/-- The units that a group has if it is overridden. -/
def unitsBelow (gs : SpeciesGroups) (name : Value) : String :=
  ((gs.get? name).map (·.units)).getD ""

/-- The groups in effect, name by name: those that the settings name are made from what is set. -/
theorem ofValue?_overriddenGroups (hgs : ∀ e ∈ gs, e.1.isKey = true) (hentries : Distinct entries)
    (h : overriddenGroups gs entries = .ok out) (name : Value) :
    match Mapping.get? entries name with
    | none => out.get? name = gs.get? name
    | some v => ∃ key g, key.same name = true ∧
      SpeciesGroup.ofValue? key v (unitsBelow gs name) = .ok g ∧ out.get? name = some g := by
  induction entries generalizing gs with
  | nil =>
    cases h
    rfl
  | cons e rest ih =>
    obtain ⟨key, members⟩ := e
    obtain ⟨g, hg, h⟩ := Attempt.bind_eq_ok.1 h
    obtain ⟨⟨hkey, -⟩, hrest⟩ := Distinct.cons_iff.1 hentries
    rw [SpeciesGroups.put_eq] at h
    have hi := ih (forall_key_put (P := fun v => v.isKey = true) hgs hkey) hrest h
    simp only [Mapping.get?_eq, SpeciesGroups.get?_eq, get?_put hgs hkey, get?_cons, unitsBelow]
      at hi ⊢
    by_cases hs : key.same name = true
    · rw [hentries.get?_tail hs] at hi
      simp only [hs] at hi ⊢
      rw [← get?_congr hgs hkey hs]
      exact ⟨key, g, hs, hg, hi⟩
    · simp only [if_neg hs] at hi ⊢
      exact hi

/-- The groups that the settings name have the members that are set. -/
theorem get?_overriddenGroups (hgs : ∀ e ∈ gs, e.1.isKey = true) (hentries : Distinct entries)
    (h : overriddenGroups gs entries = .ok out) (name : Value) :
    match Mapping.get? entries name with
    | none => out.get? name = gs.get? name
    | some v => ∃ g, out.get? name = some g ∧ g.name.same name = true ∧ v = .map g.entries ∧
      g.units = unitsBelow gs name := by
  have hmade := ofValue?_overriddenGroups hgs hentries h name
  cases hv : Mapping.get? entries name with
  | none => rwa [hv] at hmade
  | some v =>
    rw [hv] at hmade
    obtain ⟨key, g, hs, hg, hout⟩ := hmade
    obtain ⟨hname, hunits, hmembers⟩ := SpeciesGroup.ofValue?_eq_ok hg
    exact ⟨g, hout, hname ▸ hs, hmembers, hunits⟩

end Config

end GridStream
