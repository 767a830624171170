import GridStream.Config.Layer
import GridStream.Proofs.Attempt
import GridStream.Proofs.Value.Mapping

/-!
# Laying one layer over another

What a merge makes of a key depends on the value of the key below and above only
(`Config.get?_merge`). So in a section each key that the upper layer sets to a value that is no
mapping has this value, each key that it does not set has the value that it has below
(`Config.IsLayer.merge`), and a species group that the upper layer names is that of the upper layer
as a whole.
-/

namespace GridStream.Config
open Entries

variable {base layer m entries below : Mapping} {key k value x : Value}

/-- What a layer makes of the value of a key. Species groups are not merged with each other. -/
def laid (below? : Option Value) (whole : Bool) : Value → Attempt Value
  | .map entries =>
    match below? with
    | some (.map below) =>
      if whole then .ok (.map (Mapping.update below entries))
      else do .ok (.map (← merge below entries))
    | some below => if whole then .error (noMapping below) else .ok (.map entries)
    | none => .ok (.map entries)
  | value => .ok value

theorem layOver_eq : layOver base key value =
    (laid (base.get? key) (key.same groupsKey) value).map (base.put key ·) := by
  cases value with
  | map entries =>
    rw [layOver]
    cases base.get? key with
    | none => rfl
    | some v =>
      cases v with
      | map below =>
        cases key.same groupsKey with
        | true => rfl
        | false =>
          simp only [laid, Bool.false_eq_true, ↓reduceIte]
          cases merge below entries <;> rfl
      | _ => cases key.same groupsKey <;> rfl
  | _ => simp [layOver, laid, Except.map]

theorem layOver_eq_ok : layOver base key value = .ok m ↔
    ∃ x, laid (base.get? key) (key.same groupsKey) value = .ok x ∧ m = base.put key x := by
  rw [layOver_eq]
  cases laid (base.get? key) (key.same groupsKey) value <;> simp [Except.map, eq_comm]

theorem merge_cons_eq_ok {rest : Mapping} : merge base ((key, value) :: rest) = .ok m ↔
    ∃ x, laid (base.get? key) (key.same groupsKey) value = .ok x ∧
      merge (base.put key x) rest = .ok m := by
  rw [merge, Attempt.bind_eq_ok]
  constructor
  · rintro ⟨b, hb, h⟩
    obtain ⟨x, hx, rfl⟩ := layOver_eq_ok.1 hb
    exact ⟨x, hx, h⟩
  · rintro ⟨x, hx, h⟩
    exact ⟨_, layOver_eq_ok.2 ⟨x, hx, rfl⟩, h⟩

/-- Equal keys are both that of the species groups, or none is. -/
theorem same_groupsKey (hkey : key.isKey = true) (h : key.same k = true) :
    key.same groupsKey = groupsKey.same k := by
  have hg : groupsKey.isKey = true := by simp [groupsKey, Value.isKey]
  rw [← Value.same_congr_right hg hkey h]
  exact Bool.eq_iff_iff.2 ⟨Value.same_symm hkey, Value.same_symm hg⟩

/-- A merge key by key. -/
theorem get?_merge (hbase : Distinct base) (hentries : Distinct entries)
    (h : merge base entries = .ok m) : Distinct m ∧ ∀ k,
      match entries.get? k with
      | none => m.get? k = base.get? k
      | some value => ∃ x, laid (base.get? k) (groupsKey.same k) value = .ok x ∧
        m.get? k = some x := by
  induction entries generalizing base with
  | nil =>
    cases h
    exact ⟨hbase, fun k => rfl⟩
  | cons e rest ih =>
    obtain ⟨key, value⟩ := e
    obtain ⟨x, hx, h⟩ := merge_cons_eq_ok.1 h
    obtain ⟨⟨hkey, -⟩, hrest⟩ := Distinct.cons_iff.1 hentries
    rw [Mapping.put_eq] at h
    obtain ⟨hm, hget⟩ := ih (hbase.put hkey) hrest h
    refine ⟨hm, fun k => ?_⟩
    have hk := hget k
    simp only [Mapping.get?_eq, get?_put hbase.isKey hkey] at hk
    simp only [Mapping.get?_eq, get?_cons]
    by_cases hs : key.same k = true
    · rw [hentries.get?_tail hs, if_pos hs] at hk
      rw [if_pos hs]
      refine ⟨x, ?_, hk⟩
      rw [Mapping.get?_eq, get?_congr hbase.isKey hkey hs, same_groupsKey hkey hs] at hx
      exact hx
    · rw [if_neg hs] at hk ⊢
      exact hk

/-! ## Sections -/

def sectionKeys : List Value := [inputKey, processingKey, groupsKey]

/-- The entries of a section of a layer, none if the layer does not have the section. -/
def part (layer : Mapping) (name : Value) : Mapping :=
  ((layer.get? name).bind Value.map?).getD []

/-- What a layer sets under a key of a section. -/
def given (layer : Mapping) (name key : Value) : Option Value := (part layer name).get? key

/-- A layer is a mapping, and so is each section that it has. -/
structure IsLayer (layer : Mapping) : Prop where
  distinct : Distinct layer
  section_ : ∀ name ∈ sectionKeys, ∀ v, layer.get? name = some v →
    ∃ entries, v = .map entries ∧ Distinct entries

/-- A layer that has all sections. -/
structure IsComplete (layer : Mapping) : Prop extends IsLayer layer where
  isSome : ∀ name ∈ sectionKeys, (layer.get? name).isSome

variable {name : Value}

theorem IsLayer.get?_eq (h : IsLayer layer) (hn : name ∈ sectionKeys) :
    (layer.get? name = none ∧ part layer name = []) ∨
      (layer.get? name = some (.map (part layer name)) ∧ Distinct (part layer name)) := by
  unfold part
  cases hv : layer.get? name with
  | none => exact .inl ⟨rfl, rfl⟩
  | some v =>
    obtain ⟨entries, rfl, he⟩ := h.section_ name hn v hv
    exact .inr ⟨rfl, he⟩

theorem IsLayer.distinct_part (h : IsLayer layer) (hn : name ∈ sectionKeys) :
    Distinct (part layer name) := by
  rcases h.get?_eq hn with ⟨-, he⟩ | ⟨-, he⟩
  · rw [he]
    exact .nil
  · exact he

theorem IsComplete.get?_eq (h : IsComplete layer) (hn : name ∈ sectionKeys) :
    layer.get? name = some (.map (part layer name)) := by
  rcases h.toIsLayer.get?_eq hn with ⟨he, -⟩ | ⟨he, -⟩
  · have hs := h.isSome name hn
    rw [he] at hs
    cases hs
  · exact he

theorem part_eq (h : layer.get? name = some (.map entries)) : part layer name = entries := by
  rw [part, h]
  rfl

/-- A section of a merge is a merge of the sections, but for the species groups. -/
theorem get?_section (hbase : IsComplete base) (hlayer : IsLayer layer)
    (h : merge base layer = .ok m) (hn : name ∈ sectionKeys) :
    ∃ entries, m.get? name = some (.map entries) ∧
      if groupsKey.same name = true then entries = (part base name).update (part layer name)
      else merge (part base name) (part layer name) = .ok entries := by
  have hm := (get?_merge hbase.distinct hlayer.distinct h).2 name
  rcases hlayer.get?_eq hn with ⟨hl, hp⟩ | ⟨hl, -⟩
  · simp only [hl] at hm
    refine ⟨part base name, hm.trans (hbase.get?_eq hn), ?_⟩
    rw [hp]
    split
    · rfl
    · rw [merge]
  · simp only [hl] at hm
    obtain ⟨x, hx, hm⟩ := hm
    rw [hbase.get?_eq hn, laid] at hx
    split at hx
    · next hg =>
      cases hx
      exact ⟨_, hm, by rw [if_pos hg]⟩
    · next hg =>
      obtain ⟨entries, he, hx⟩ := Attempt.bind_eq_ok.1 hx
      cases hx
      exact ⟨entries, hm, by rw [if_neg hg, he]⟩

theorem isComplete_merge (hbase : IsComplete base) (hlayer : IsLayer layer)
    (h : merge base layer = .ok m) : IsComplete m := by
  have hsection : ∀ name ∈ sectionKeys, ∃ entries, m.get? name = some (.map entries) ∧
      Distinct entries := fun name hn => by
    obtain ⟨entries, hm, he⟩ := get?_section hbase hlayer h hn
    refine ⟨entries, hm, ?_⟩
    have hb := hbase.distinct_part hn
    have hl := hlayer.distinct_part hn
    split at he
    · rw [he]
      exact Mapping.distinct_update hb hl.isKey
    · exact (get?_merge hb hl he).1
  refine ⟨⟨(get?_merge hbase.distinct hlayer.distinct h).1, fun name hn v hv => ?_⟩,
    fun name hn => ?_⟩
  · obtain ⟨entries, hm, he⟩ := hsection name hn
    exact ⟨entries, Option.some.inj (hv.symm.trans hm), he⟩
  · obtain ⟨entries, hm, -⟩ := hsection name hn
    rw [hm]
    rfl

/-- A key that the upper layer sets to no mapping has the value of the upper layer. -/
theorem given_merge (hbase : IsComplete base) (hlayer : IsLayer layer)
    (h : merge base layer = .ok m) (hn : name ∈ [inputKey, processingKey])
    (hkey : ∀ v, given layer name key = some v → v.map? = none) :
    given m name key = (given layer name key).or (given base name key) := by
  have hs : name ∈ sectionKeys := List.mem_append_left [groupsKey] hn
  have hg : ¬ groupsKey.same name = true := by
    simp only [List.mem_cons, List.not_mem_nil, or_false] at hn
    rcases hn with rfl | rfl <;> decide
  obtain ⟨entries, hm, he⟩ := get?_section hbase hlayer h hs
  rw [if_neg hg] at he
  have hk := (get?_merge (hbase.distinct_part hs) (hlayer.distinct_part hs) he).2 key
  unfold given at hkey ⊢
  rw [part_eq hm]
  cases hv : (part layer name).get? key with
  | none =>
    simp only [hv] at hk
    exact hk
  | some v =>
    simp only [hv] at hk
    obtain ⟨x, hx, hk⟩ := hk
    have hleaf : laid ((part base name).get? key) (groupsKey.same key) v = .ok v := by
      have hv := hkey v hv
      cases v <;> first | rfl | cases hv
    rw [hk, ← hx.symm.trans hleaf |> Except.ok.inj]
    rfl

/-- A species group that the upper layer names is that of the upper layer. -/
theorem part_groupsKey (hbase : IsComplete base) (hlayer : IsLayer layer)
    (h : merge base layer = .ok m) :
    part m groupsKey = (part base groupsKey).update (part layer groupsKey) := by
  have hs : groupsKey ∈ sectionKeys := by simp [sectionKeys]
  obtain ⟨entries, hm, he⟩ := get?_section hbase hlayer h hs
  rw [part_eq hm]
  rwa [if_pos (by decide)] at he

end GridStream.Config
