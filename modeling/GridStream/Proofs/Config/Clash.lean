import GridStream.Proofs.Config.Layers
import GridStream.Proofs.Value.Regular

/-!
# Merges that fail

Laying a layer over another fails in one case only: the upper one has a mapping of species groups
where the lower one has a value that is no mapping, at any depth (`Config.merge_cases`). The
defaults and the environment never make a merge fail.
-/

namespace GridStream.Config
open Entries

variable {base base' entries rest m : Mapping} {key value : Value}

/-- A layer that has a mapping of species groups where the layer below has no mapping. -/
inductive Clashes : Mapping → Mapping → Prop
  | groups {base entries es : Mapping} {key below : Value} (mem : (key, .map es) ∈ entries)
    (is_groups : key.same groupsKey = true) (get : base.get? key = some below)
    (no_map : below.map? = none) : Clashes base entries
  | deeper {base entries es below : Mapping} {key : Value} (mem : (key, .map es) ∈ entries)
    (not_groups : key.same groupsKey = false) (get : base.get? key = some (.map below))
    (clash : Clashes below es) : Clashes base entries

/-- A clash under one key, given what is below. -/
inductive ClashesAt (below? : Option Value) (whole : Bool) : Value → Prop
  | groups {es : Mapping} {below : Value} (is_groups : whole = true) (get : below? = some below)
    (no_map : below.map? = none) : ClashesAt below? whole (.map es)
  | deeper {es below : Mapping} (not_groups : whole = false) (get : below? = some (.map below))
    (clash : Clashes below es) : ClashesAt below? whole (.map es)

theorem clashes_iff : Clashes base entries ↔
    ∃ e ∈ entries, ClashesAt (base.get? e.1) (e.1.same groupsKey) e.2 := by
  constructor
  · rintro (⟨mem, is_groups, get, no_map⟩ | ⟨mem, not_groups, get, clash⟩)
    · exact ⟨_, mem, .groups is_groups get no_map⟩
    · exact ⟨_, mem, .deeper not_groups get clash⟩
  · rintro ⟨⟨key, value⟩, mem, h⟩
    cases h with
    | groups is_groups get no_map => exact .groups mem is_groups get no_map
    | deeper not_groups get clash => exact .deeper mem not_groups get clash

theorem clashes_cons : Clashes base ((key, value) :: rest) ↔
    ClashesAt (base.get? key) (key.same groupsKey) value ∨ Clashes base rest := by
  simp [clashes_iff]

/-- Whether there is a clash depends on what is below the keys of the upper layer. -/
theorem clashes_congr (h : ∀ e ∈ entries, base.get? e.1 = base'.get? e.1) :
    Clashes base entries ↔ Clashes base' entries := by
  rw [clashes_iff, clashes_iff]
  exact exists_congr fun e => and_congr_right fun he => by rw [h e he]

/-- What comes of laying something over something else: a regular result if there is no clash, and
the failure of an operation that only mappings have if there is one. -/
inductive Outcome {α : Type} (Clash : Prop) (P : α → Prop) : Attempt α → Prop
  | ok {a : α} (regular : P a) (no_clash : ¬ Clash) : Outcome Clash P (.ok a)
  | error {v : Value} (clash : Clash) : Outcome Clash P (.error (noMapping v))

theorem clashesAt_map_iff {below es : Mapping} :
    ClashesAt (some (.map below)) false (.map es) ↔ Clashes below es := by
  constructor
  · intro h
    cases h with
    | groups is_groups => cases is_groups
    | deeper _ get clash =>
      cases get
      exact clash
  · exact .deeper rfl rfl

theorem laid_outcome {below? : Option Value} {whole : Bool}
    (hbelow : ∀ v, below? = some v → v.Regular) (hvalue : value.Regular)
    (ih : ∀ es, value = .map es → ∀ base : Mapping, base.Regular →
      Outcome (Clashes base es) Mapping.Regular (merge base es)) :
    Outcome (ClashesAt below? whole value) Value.Regular (laid below? whole value) := by
  cases value with
  | map es =>
    cases below? with
    | none =>
      refine .ok hvalue fun h => ?_
      cases h with
      | groups _ get => cases get
      | deeper _ get => cases get
    | some below =>
      cases below with
      | map b =>
        have hb : Mapping.Regular b := hbelow _ rfl
        cases whole with
        | true =>
          refine .ok (hb.update hvalue) fun h => ?_
          cases h with
          | groups _ get no_map =>
            cases get
            cases no_map
          | deeper not_groups => cases not_groups
        | false =>
          have hm := ih es rfl b hb
          simp only [laid, Bool.false_eq_true, ↓reduceIte]
          generalize merge b es = a at hm
          cases hm with
          | ok regular no_clash => exact .ok regular (mt clashesAt_map_iff.1 no_clash)
          | error clash => exact .error (clashesAt_map_iff.2 clash)
      | _ =>
        cases whole with
        | true => exact .error (.groups rfl rfl rfl)
        | false =>
          refine .ok hvalue fun h => ?_
          cases h with
          | groups is_groups => cases is_groups
          | deeper _ get => cases get
  | _ => exact .ok hvalue fun h => by cases h

/-- The first key is laid, which does not change what is below the others. -/
theorem merge_cons_outcome (hbase : base.Regular) (hkey : key.isKey = true)
    (hne : ∀ e ∈ rest, key.same e.1 = false)
    (hlaid : Outcome (ClashesAt (base.get? key) (key.same groupsKey) value) Value.Regular
      (laid (base.get? key) (key.same groupsKey) value))
    (hrest : ∀ base : Mapping, base.Regular →
      Outcome (Clashes base rest) Mapping.Regular (merge base rest)) :
    Outcome (Clashes base ((key, value) :: rest)) Mapping.Regular
      (merge base ((key, value) :: rest)) := by
  rw [merge, layOver_eq, clashes_cons]
  generalize laid (base.get? key) (key.same groupsKey) value = a at hlaid
  cases hlaid with
  | error clash => exact .error (.inl clash)
  | @ok x regular no_clash =>
    have hput := hrest (base.put key x) (hbase.put hkey regular)
    have hcongr : Clashes (base.put key x) rest ↔ Clashes base rest := clashes_congr fun e he => by
      rw [Mapping.put_eq, Mapping.get?_eq, get?_put hbase.distinct.isKey hkey,
        if_neg (by simp [hne e he])]
      rfl
    rw [hcongr] at hput
    simp only [Except.map, bind, Except.bind]
    generalize merge (base.put key x) rest = a at hput
    cases hput with
    | ok regular no_clash' => exact .ok regular (not_or.2 ⟨no_clash, no_clash'⟩)
    | error clash => exact .error (.inr clash)

/-- Laying a layer over another fails if they clash, and gives a regular mapping otherwise. -/
theorem merge_outcome (hbase : base.Regular) (hentries : (Value.map entries).Regular) :
    Outcome (Clashes base entries) Mapping.Regular (merge base entries) := by
  generalize hv : Value.map entries = v at hentries
  induction hentries generalizing base entries with
  | leaf h =>
    cases hv
    cases h
  | @map all distinct values ih =>
    cases hv
    -- The values stay those of the whole mapping, for which there is the outer hypothesis.
    have hgo : ∀ entries : Mapping, (∀ e ∈ entries, e ∈ all) → Distinct entries →
        ∀ base : Mapping, base.Regular →
          Outcome (Clashes base entries) Mapping.Regular (merge base entries) := by
      intro entries
      induction entries with
      | nil =>
        intro _ _ base hbase
        rw [merge]
        exact .ok hbase (by simp [clashes_iff])
      | cons e rest ihrest =>
        intro hmem hdistinct base hbase
        rw [List.forall_mem_cons] at hmem
        obtain ⟨⟨hkey, hne⟩, hdistinct⟩ := Distinct.cons_iff.1 hdistinct
        exact merge_cons_outcome hbase hkey hne
          (laid_outcome (fun v hv => hbase.of_get? hv) (values _ hmem.1)
            fun es hes base hb => ih _ hmem.1 hb hes.symm)
          (ihrest hmem.2 hdistinct)
    exact hgo all (fun _ he => he) distinct base hbase

theorem exists_merge (hbase : base.Regular) (hentries : Mapping.Regular entries)
    (h : ¬ Clashes base entries) : ∃ m, merge base entries = .ok m ∧ Mapping.Regular m := by
  have hm : Outcome (Clashes base entries) _ _ := merge_outcome hbase hentries
  generalize merge base entries = a at hm
  cases hm with
  | ok regular => exact ⟨_, rfl, regular⟩
  | error clash => exact absurd clash h

theorem regular_merge (hbase : base.Regular) (hentries : Mapping.Regular entries)
    (h : merge base entries = .ok m) : m.Regular := by
  have hm : Outcome (Clashes base entries) _ _ := merge_outcome hbase hentries
  generalize merge base entries = a at h hm
  subst h
  cases hm with
  | ok regular => exact regular

/-! ## Layers that clash with nothing -/

theorem same_groupsKey_iff : key.same groupsKey = true ↔ key = groupsKey := by
  cases key <;> simp [Value.same, Value.same.sameNumber, Value.number?, groupsKey]

theorem not_clashes_of_leaves (h : ∀ e ∈ entries, e.2.map? = none) : ¬ Clashes base entries := by
  rintro (⟨mem, -, -, -⟩ | ⟨mem, -, -, -⟩)
  · cases h _ mem
  · cases h _ mem

/-- There is no clash with a section that has no species groups and no mappings in it. -/
theorem not_clashes_of_flat (h : ∀ e ∈ base, e.2.map? = none) (hg : base.get? groupsKey = none) :
    ¬ Clashes base entries := by
  rintro (⟨-, is_groups, get, -⟩ | ⟨-, -, get, -⟩)
  · rw [same_groupsKey_iff.1 is_groups, hg] at get
    cases get
  · obtain ⟨e, he, -, hmap⟩ := mem_of_get? get
    have hleaf := h e he
    rw [hmap] at hleaf
    cases hleaf

theorem regular_of_leaves (hd : Distinct entries) (h : ∀ e ∈ entries, e.2.map? = none) :
    entries.Regular :=
  .map hd fun e he => .leaf (h e he)

/-- The sections of the defaults have no mappings in them, and no species groups. -/
theorem flat_defaults : ∀ e ∈ defaults, ∃ entries : Mapping, e.2 = .map entries ∧
    entries.Regular ∧ (∀ e ∈ entries, e.2.map? = none) ∧ entries.get? groupsKey = none := by
  have hi : Distinct (part defaults inputKey) := isComplete_defaults.distinct_part
    (by simp [sectionKeys])
  have hp : Distinct (part defaults processingKey) := isComplete_defaults.distinct_part
    (by simp [sectionKeys])
  have hileaves : ∀ e ∈ part defaults inputKey, e.2.map? = none := by
    change ∀ e ∈ [_, _, _, _, _, _], _
    simp [Value.map?]
  have hpleaves : ∀ e ∈ part defaults processingKey, e.2.map? = none := by
    change ∀ e ∈ [_, _, _], _
    simp [Value.map?]
  intro e he
  simp only [defaults, List.mem_cons, List.not_mem_nil, or_false] at he
  rcases he with rfl | rfl | rfl
  · exact ⟨_, rfl, regular_of_leaves hi hileaves, hileaves, rfl⟩
  · exact ⟨_, rfl, regular_of_leaves hp hpleaves, hpleaves, rfl⟩
  · exact ⟨[], rfl, .nil, by simp, rfl⟩

theorem regular_defaults : defaults.Regular := by
  refine .map isComplete_defaults.distinct fun e he => ?_
  obtain ⟨entries, hmap, hregular, -⟩ := flat_defaults e he
  rw [hmap]
  exact hregular

theorem not_clashes_defaults : ¬ Clashes defaults entries := by
  rintro (⟨-, -, get, no_map⟩ | ⟨-, -, get, clash⟩)
  · obtain ⟨e, he, -, rfl⟩ := mem_of_get? get
    obtain ⟨es, hmap, -⟩ := flat_defaults e he
    rw [hmap] at no_map
    cases no_map
  · obtain ⟨e, he, -, hbelow⟩ := mem_of_get? get
    obtain ⟨es, hmap, -, hleaves, hg⟩ := flat_defaults e he
    cases hbelow.symm.trans hmap
    exact not_clashes_of_flat hleaves hg clash

variable {environment : List (String × String)}

/-- The environment sets truth values and texts in sections. -/
theorem flat_environmentLayer : ∀ e ∈ environmentLayer environment,
    e.1.same groupsKey = false ∧ ∃ entries, e.2 = .map entries ∧ Distinct entries ∧
      ∀ e ∈ entries, e.2.map? = none := by
  intro e he
  obtain ⟨name, hn, he⟩ := List.mem_filterMap.1 he
  split at he
  · cases he
  · cases he
    refine ⟨?_, _, rfl, ?_, ?_⟩
    · simp only [List.mem_cons, List.not_mem_nil, or_false] at hn
      rcases hn with rfl | rfl <;> rfl
    · rw [environmentSection_eq]
      exact distinct_ofFields (environmentNames_pairwise.filter _)
    · intro e he
      rw [environmentSection_eq] at he
      obtain ⟨n, -, he⟩ := List.mem_filterMap.1 he
      obtain ⟨v, hv, rfl⟩ := Option.map_eq_some_iff.1 he
      obtain ⟨entry, -, rfl⟩ := Option.map_eq_some_iff.1 hv
      exact map?_environmentValue entry.2

theorem regular_environmentLayer : (environmentLayer environment).Regular :=
  .map isLayer_environmentLayer.distinct fun e he => by
    obtain ⟨-, entries, hmap, hd, hleaves⟩ := flat_environmentLayer e he
    rw [hmap]
    exact regular_of_leaves hd hleaves

theorem not_clashes_environmentLayer : ¬ Clashes base (environmentLayer environment) := by
  rintro (⟨mem, is_groups, -, -⟩ | ⟨mem, -, -, clash⟩)
  · obtain ⟨hne, -⟩ := flat_environmentLayer _ mem
    rw [is_groups] at hne
    cases hne
  · obtain ⟨-, entries, hmap, -, hleaves⟩ := flat_environmentLayer _ mem
    cases hmap
    exact not_clashes_of_leaves hleaves clash

end GridStream.Config
