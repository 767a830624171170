import GridStream.Proofs.Config.Groups
import GridStream.Proofs.Decimal.Exact

/-!
# Which members make a group

Members are accepted if there are any, their names are texts that are not empty and differ from
each other, and their weights are finite numbers (`SpeciesGroup.WellFormed`). All others are refused
because of the first member that is at fault (`SpeciesGroup.Refused`). A group holds the members
that were given, and can be built again from the mapping that it is written as
(`SpeciesGroup.Rebuilt`). The main statement is `SpeciesGroup.ofMembers?_spec`.
-/

namespace GridStream

/-- Whether a value is a weight: an integer or a finite double. -/
inductive Value.IsWeight : Value → Prop
  | int (n : Int) : IsWeight (.int n)
  | float (x : Float) (finite : Decimal.isFinite x = true) : IsWeight (.float x)

/-- Whether a value fits into 64 bits, with or without sign, if it is an integer. -/
def Value.Short (v : Value) : Prop := ∀ n, v = .int n → -2 ^ 63 ≤ n ∧ n < 2 ^ 64

namespace Weight

variable {v : Value} {w : Weight}

theorem exists_ofValue? (h : v.Short) :
    (v.IsWeight ∧ ∃ w, ofValue? v = .ok (some w)) ∨ (¬ v.IsWeight ∧ ofValue? v = .ok none) := by
  cases v with
  | int n => exact .inl ⟨.int n, int n, if_pos (h n rfl)⟩
  | float x =>
    by_cases hx : Decimal.isFinite x = true
    · exact .inl ⟨.float x hx, float x, by rw [ofValue?, if_pos hx]⟩
    · exact .inr ⟨fun | .float _ h => hx h, by rw [ofValue?, if_neg hx]⟩
  | _ => exact .inr ⟨nofun, rfl⟩

theorem isFinite_ofInt? {n : Int} {x : Float} (h : Decimal.ofInt? n = some x) :
    Decimal.isFinite x = true := by
  unfold Decimal.ofInt? at h
  dsimp only at h
  split at h
  · next hfinite =>
    cases h
    split
    · exact Decimal.isFinite_neg hfinite
    · exact hfinite
  · cases h

theorem isFinite_toFloat (h : w.toValue.IsWeight) : Decimal.isFinite w.toFloat = true := by
  cases w with
  | int n =>
    rw [toFloat]
    cases hx : Decimal.ofInt? n with
    | none => rfl
    | some x => exact isFinite_ofInt? hx
  | float x =>
    cases h with
    | float _ finite => exact finite

theorem toValue_injective : Function.Injective toValue := by
  intro v w h
  cases v <;> cases w <;> cases h <;> rfl

end Weight

namespace SpeciesGroup

/-- Whether a value can be the name of a member. -/
def IsName (v : Value) : Prop := ∃ s, v = .text s ∧ s ≠ ""

/-- Members none of which is at fault. -/
structure Sound (members : List (Value × Value)) : Prop where
  names : ∀ e ∈ members, IsName e.1
  nodup : (members.map (·.1)).Nodup
  weights : ∀ e ∈ members, e.2.IsWeight

/-- Members that make a group. -/
structure WellFormed (members : List (Value × Value)) : Prop extends Sound members where
  nonempty : members ≠ []

/-- What is wrong with a member of a group behind the members `before`, and how it is reported. A
name that cannot be one is reported first, and a weight last. -/
inductive Fault (group : Value) (before : List (Value × Value)) : Value × Value → Failure → Prop
  | name {member weight : Value} (isName : ¬ IsName member) :
    Fault group before (member, weight) (.configuration
      s!"Variable group '{group.toText}' has an invalid member name {member.inner}"
      [("group", group)])
  | repeated {s : String} {weight : Value} (nonempty : s ≠ "")
    (mem : .text s ∈ before.map (·.1)) :
    Fault group before (.text s, weight) (.configuration
      s!"Variable group '{group.toText}' lists '{s}' more than once"
      [("group", group), ("variable", .text s)])
  | weight {s : String} {weight : Value} (nonempty : s ≠ "")
    (not_mem : .text s ∉ before.map (·.1)) (isWeight : ¬ weight.IsWeight) :
    Fault group before (.text s, weight) (.configuration
      (s!"Weight of '{s}' in group '{group.toText}' must be a finite number, " ++
        s!"got {weight.inner}") [("group", group), ("variable", .text s)])

/-- Why members are refused, and how that is reported. -/
inductive Refused (group : Value) : List (Value × Value) → Failure → Prop
  | empty : Refused group []
    (.configuration s!"Variable group '{group.toText}' has no members" [("group", group)])
  /-- The first member at fault. -/
  | member {before after : List (Value × Value)} {e : Value × Value} {f : Failure}
    (sound : Sound before) (fault : Fault group before e f) :
    Refused group (before ++ e :: after) f

variable {name : Value} {units : String} {before rest members : List (Value × Value)}
  {e : Value × Value} {seen : List String} {f : Failure} {g : SpeciesGroup}

namespace Sound

theorem nil : Sound [] := ⟨nofun, .nil, nofun⟩

theorem left (h : Sound (before ++ rest)) : Sound before where
  names e he := h.names e (List.mem_append_left _ he)
  nodup := by
    have hnodup := h.nodup
    rw [List.map_append] at hnodup
    exact (List.nodup_append.1 hnodup).1
  weights e he := h.weights e (List.mem_append_left _ he)

theorem snoc (h : Sound before) (hname : IsName e.1) (hmem : e.1 ∉ before.map (·.1))
    (hweight : e.2.IsWeight) : Sound (before ++ [e]) where
  names := List.forall_mem_append.2 ⟨h.names, List.forall_mem_singleton.2 hname⟩
  nodup := by
    rw [List.map_append, List.map_singleton, ← List.concat_eq_append]
    exact h.nodup.concat hmem
  weights := List.forall_mem_append.2 ⟨h.weights, List.forall_mem_singleton.2 hweight⟩

end Sound

/-- A member at fault is none of sound members. -/
theorem Fault.not_sound (h : Fault name before e f) : ¬ Sound (before ++ e :: rest) := by
  intro H
  have hmem : e ∈ before ++ e :: rest := List.mem_append_right _ List.mem_cons_self
  cases h with
  | name isName => exact isName (H.names _ hmem)
  | repeated _ mem =>
    have hnodup := H.nodup
    rw [List.map_append] at hnodup
    exact (List.nodup_append.1 hnodup).2.2 _ mem _ List.mem_cons_self rfl
  | weight _ _ isWeight => exact isWeight (H.weights _ hmem)

theorem Refused.not_wellFormed (h : Refused name members f) : ¬ WellFormed members := by
  cases h with
  | empty => exact fun H => H.nonempty rfl
  | member _ fault => exact fun H => fault.not_sound H.toSound

theorem Refused.kind (h : Refused name members f) : f.kind = .configuration := by
  cases h with
  | empty => rfl
  | member _ fault => cases fault <;> rfl

/-! ## One member -/

/-- A member is accepted, and sound behind those before it, or it is at fault. -/
theorem exists_checkMember (name : Value) (hseen : ∀ s, s ∈ seen ↔ Value.text s ∈ before.map (·.1))
    (hshort : e.2.Short) (H : Sound before) :
    (∃ s w, checkMember name seen e.1 e.2 = .ok (s, w) ∧ e.1 = .text s ∧ Sound (before ++ [e])) ∨
      ∃ f, checkMember name seen e.1 e.2 = .error f ∧ Fault name before e f := by
  obtain ⟨member, weight⟩ := e
  by_cases hname : IsName member
  · obtain ⟨s, rfl, hs⟩ := hname
    by_cases hmem : s ∈ seen
    · exact .inr ⟨_, by rw [checkMember, if_neg hs, if_pos hmem], .repeated hs ((hseen s).1 hmem)⟩
    · have hcheck : ∀ w?, Weight.ofValue? weight = .ok w? →
          checkMember name seen (.text s) weight = _ := fun w? hw => by
        rw [checkMember, if_neg hs, if_neg hmem, hw]
      have hbefore := mt (hseen s).2 hmem
      rcases Weight.exists_ofValue? hshort with ⟨hweight, w, hw⟩ | ⟨hweight, hw⟩
      · exact .inl ⟨s, w, hcheck _ hw, rfl, H.snoc ⟨s, rfl, hs⟩ hbefore hweight⟩
      · exact .inr ⟨_, hcheck _ hw, .weight hs hbefore hweight⟩
  · refine .inr ⟨_, ?_, .name hname⟩
    change checkMember name seen member weight = _
    unfold checkMember
    split
    · next s =>
      split
      · rfl
      · next hs => exact absurd ⟨s, rfl, hs⟩ hname
    · rfl

/-! ## All members -/

/-- Members behind sound members are accepted if all of them together are sound, and refused for
the first one at fault otherwise. -/
theorem exists_checkMembers (name : Value) (hseen : ∀ s, s ∈ seen ↔ Value.text s ∈ before.map (·.1))
    (hshort : ∀ e ∈ rest, e.2.Short) (H : Sound before) :
    (∃ checked, checkMembers name seen rest = .ok checked ∧ Sound (before ++ rest)) ∨
      ∃ done e after f, rest = done ++ e :: after ∧ Sound (before ++ done) ∧
        Fault name (before ++ done) e f ∧ checkMembers name seen rest = .error f := by
  induction rest generalizing before seen with
  | nil => exact .inl ⟨[], rfl, by rwa [List.append_nil]⟩
  | cons e rest ih =>
    rw [List.forall_mem_cons] at hshort
    rcases exists_checkMember name hseen hshort.1 H with
      ⟨s, w, hcheck, hs, hsound⟩ | ⟨f, hcheck, hfault⟩
    · have hseen' : ∀ t, t ∈ s :: seen ↔ Value.text t ∈ (before ++ [e]).map (·.1) := fun t => by
        rw [List.map_append, List.mem_append, ← hseen, List.map_singleton, List.mem_singleton, hs,
          Value.text.injEq, List.mem_cons, or_comm]
      rw [checkMembers, hcheck, List.append_cons]
      rcases ih hseen' hshort.2 hsound with
        ⟨checked, hchecked, hall⟩ | ⟨done, e', after, f, rfl, hdone, hfault, hchecked⟩
      · refine .inl ⟨(s, w) :: checked, ?_, hall⟩
        change (checkMembers name (s :: seen) rest >>= _) = _
        rw [hchecked]
        rfl
      · rw [← List.append_cons] at hdone hfault
        refine .inr ⟨e :: done, e', after, f, rfl, hdone, hfault, ?_⟩
        change (checkMembers name (s :: seen) _ >>= _) = _
        rw [hchecked]
        rfl
    · refine .inr ⟨[], e, rest, f, rfl, by rwa [List.append_nil], by rwa [List.append_nil], ?_⟩
      rw [checkMembers, hcheck]
      rfl

theorem exists_make? (name : Value) (units : String) (hshort : ∀ e ∈ members, e.2.Short) :
    (WellFormed members ∧ ∃ g, make? name members units = .ok g) ∨
      ∃ f, make? name members units = .error f ∧ Refused name members f := by
  cases members with
  | nil => exact .inr ⟨_, rfl, .empty⟩
  | cons e rest =>
    have hmake : make? name (e :: rest) units = (do
      .ok { name, members := ← checkMembers name [] (e :: rest), units }) := rfl
    rw [hmake]
    have hseen : ∀ s, s ∈ ([] : List String) ↔ Value.text s ∈ ([] : Mapping).map (·.1) :=
      fun s => iff_of_false List.not_mem_nil List.not_mem_nil
    rcases exists_checkMembers name hseen hshort .nil with
      ⟨checked, hchecked, hsound⟩ | ⟨done, e', after, f, he, hdone, hfault, hf⟩
    · rw [hchecked]
      exact .inl ⟨⟨hsound, nofun⟩, _, rfl⟩
    · rw [hf]
      exact .inr ⟨f, rfl, he ▸ .member hdone hfault⟩

/-! ## The group that is made -/

/-- A group whose names, weights and entries belong together, and which can be built again from the
mapping that it is written as, entry by entry. -/
structure Rebuilt (g : SpeciesGroup) : Prop where
  nodup : g.memberNames.Nodup
  lengths : g.memberNames.length = g.members.length ∧ g.weights.length = g.members.length ∧
    (Mapping.ofEntries g.toMapping).length = g.members.length
  aligned : Mapping.ofEntries g.toMapping =
    List.zipWith (fun v x => (.text v, .float x)) g.memberNames g.weights
  again : ∃ g', ofValue? g.name (.map (Mapping.ofEntries g.toMapping)) g.units = .ok g' ∧
    g'.name = g.name ∧ g'.memberNames = g.memberNames ∧ g'.weights = g.weights ∧
      g'.units = g.units

theorem make?_eq_ok (h : make? name members units = .ok g) :
    g.name = name ∧ g.units = units ∧ members = g.entries := by
  obtain ⟨hname, hunits, hmap⟩ := ofValue?_eq_ok (v := .map members) h
  exact ⟨hname, hunits, Value.map.inj hmap⟩

theorem map_fst_entries : g.entries.map (·.1) = g.memberNames.map .text := by
  rw [entries, memberNames, List.map_map, List.map_map]
  rfl

theorem map_fst_toMapping : g.toMapping.map (·.1) = g.memberNames.map .text := by
  rw [toMapping, memberNames, List.map_map, List.map_map]
  rfl

theorem Sound.nodup_memberNames (h : Sound g.entries) : g.memberNames.Nodup := by
  have hnodup := h.nodup
  rw [map_fst_entries] at hnodup
  exact hnodup.of_map _

theorem Sound.toMapping (h : Sound g.entries) : Sound g.toMapping where
  names e he := by
    obtain ⟨m, hm, rfl⟩ := List.mem_map.1 he
    exact h.names (.text m.1, m.2.toValue) (List.mem_map_of_mem hm)
  nodup := by
    rw [map_fst_toMapping, ← map_fst_entries]
    exact h.nodup
  weights e he := by
    obtain ⟨m, hm, rfl⟩ := List.mem_map.1 he
    have hweight := h.weights (.text m.1, m.2.toValue) (List.mem_map_of_mem hm)
    exact .float _ (Weight.isFinite_toFloat hweight)

theorem Sound.distinct (h : Sound members) : Entries.Distinct members where
  isKey e he := by
    obtain ⟨s, hs, -⟩ := h.names e he
    rw [hs]
    simp only [Value.isKey]
  pairwise := by
    refine (List.pairwise_map.1 h.nodup).imp_of_mem fun {e f} _ hf hne => ?_
    obtain ⟨s, hs, -⟩ := h.names f hf
    rw [hs] at hne ⊢
    exact Bool.eq_false_iff.2 (mt Value.same_text.1 hne)

/-- No entry of the mapping takes the place of another one. -/
theorem Sound.ofEntries_toMapping (h : Sound g.entries) :
    Mapping.ofEntries g.toMapping = g.toMapping :=
  Mapping.update_eq.trans (Entries.update_of_distinct h.toMapping.distinct)

/-- A group whose entries are those that another one is written as. -/
theorem members_of_entries {g' : SpeciesGroup} (h : g'.entries = g.toMapping) :
    g'.members = g.members.map fun (v, w) => (v, .float w.toFloat) := by
  have hinj : Function.Injective fun m : String × Weight => (Value.text m.1, m.2.toValue) := by
    intro m m' e
    obtain ⟨hv, hw⟩ := Prod.mk.inj e
    exact Prod.ext (Value.text.inj hv) (Weight.toValue_injective hw)
  refine List.map_injective_iff.2 hinj ?_
  rw [List.map_map]
  exact h

theorem Sound.rebuilt (h : Sound g.entries) (hne : g.members ≠ []) : g.Rebuilt where
  nodup := h.nodup_memberNames
  lengths := by
    rw [h.ofEntries_toMapping]
    exact ⟨List.length_map _, List.length_map _, List.length_map _⟩
  aligned := by
    rw [h.ofEntries_toMapping, memberNames, SpeciesGroup.weights, List.zipWith_map,
      List.zipWith_self]
    rfl
  again := by
    have hshort : ∀ e ∈ g.toMapping, e.2.Short := fun e he => by
      obtain ⟨m, -, rfl⟩ := List.mem_map.1 he
      exact nofun
    rw [h.ofEntries_toMapping]
    rcases exists_make? g.name g.units hshort with ⟨-, g', hg⟩ | ⟨f, -, hf⟩
    · obtain ⟨hname, hunits, hentries⟩ := make?_eq_ok hg
      have hmembers := members_of_entries hentries.symm
      refine ⟨g', hg, hname, ?_, ?_, hunits⟩
      · rw [memberNames, hmembers, List.map_map]
        rfl
      · rw [SpeciesGroup.weights, hmembers, List.map_map]
        rfl
    · exact absurd ⟨h.toMapping, mt List.map_eq_nil_iff.1 hne⟩ hf.not_wellFormed

theorem ofMembers?_pairs :
    ofMembers? name (members.map fun e => .tuple [e.1, e.2]) units = make? name members units := by
  have hpairs : pairs (members.map fun e => .tuple [e.1, e.2]) = (members, none) := by
    induction members with
    | nil => rfl
    | cons e members ih =>
      rw [List.map_cons, pairs]
      simp only [Value.items?, ih]
  rw [ofMembers?, hpairs]

/-- Members are accepted if and only if they are well-formed, and refused for the first one at
fault otherwise. -/
theorem ofMembers?_spec (name : Value) (members : List (Value × Value)) (units : String)
    (hshort : ∀ e ∈ members, e.2.Short) :
    ((∃ g, ofMembers? name (members.map fun e => .tuple [e.1, e.2]) units = .ok g) ↔
        WellFormed members) ∧
      (¬ WellFormed members → ∃ f,
        ofMembers? name (members.map fun e => .tuple [e.1, e.2]) units = .error f ∧
          f.kind = .configuration ∧ Refused name members f) ∧
      (∀ g, ofMembers? name (members.map fun e => .tuple [e.1, e.2]) units = .ok g →
        g.name = name ∧ g.units = units ∧ g.entries = members ∧ g.Rebuilt) ∧
      ∀ v, (∀ entries, v ≠ .map entries) → ofValue? name v units = .error (.configuration
        s!"Variable group '{name.toText}' must map variable names to weights"
          [("group", name)]) := by
  rw [ofMembers?_pairs]
  have hcases := exists_make? name units hshort
  refine ⟨⟨fun ⟨g, hg⟩ => ?_, fun H => ?_⟩, fun H => ?_, fun g hg => ?_, fun v hv => ?_⟩
  · rcases hcases with ⟨H, -⟩ | ⟨f, hf, -⟩
    · exact H
    · rw [hg] at hf
      cases hf
  · rcases hcases with ⟨-, hg⟩ | ⟨f, -, hf⟩
    · exact hg
    · exact absurd H hf.not_wellFormed
  · rcases hcases with ⟨h, -⟩ | hf
    · exact absurd h H
    · obtain ⟨f, hmake, hrefused⟩ := hf
      exact ⟨f, hmake, hrefused.kind, hrefused⟩
  · obtain ⟨hname, hunits, rfl⟩ := make?_eq_ok hg
    rcases hcases with ⟨H, -⟩ | ⟨f, hf, -⟩
    · exact ⟨hname, hunits, rfl, H.rebuilt (mt List.map_eq_nil_iff.2 H.nonempty)⟩
    · rw [hg] at hf
      cases hf
  · cases v with
    | map entries => exact absurd rfl (hv entries)
    | _ => rfl

theorem ofMembers?_spec_sample : ∃ g, ofMembers? (.text "NOX")
    ([(.text "NO", .int 1), (.text "NO2", .int 2)].map fun e => .tuple [e.1, e.2]) = .ok g ∧
      g.Rebuilt := by
  have hshort : ∀ e ∈ [(Value.text "NO", Value.int 1), (.text "NO2", .int 2)], e.2.Short :=
    List.forall_mem_cons.2 ⟨fun | _, rfl => by decide,
      List.forall_mem_singleton.2 fun | _, rfl => by decide⟩
  have hsound : Sound [(.text "NO", .int 1), (.text "NO2", .int 2)] :=
    (Sound.nil.snoc ⟨_, rfl, by decide⟩ List.not_mem_nil (.int 1)).snoc ⟨_, rfl, by decide⟩
      (by simp) (.int 2)
  have hspec := ofMembers?_spec (.text "NOX") _ "" hshort
  obtain ⟨g, hg⟩ := hspec.1.2 ⟨hsound, nofun⟩
  exact ⟨g, hg, (hspec.2.2.1 g hg).2.2.2⟩

end SpeciesGroup

end GridStream
