import GridStream.Proofs.Config.Agreement
import GridStream.Proofs.Config.Clash
import GridStream.Proofs.Document.Json.RoundTrip

/-!
# Laying settings over the defaults

Settings that are laid over the defaults stay what they are, but for the defaults that they leave
out (`Config.Completed`). They pass the checks as before (`Config.check_completed`), and they are
equal to what they were exactly if they leave out none (`Config.same_completed_iff`).
-/

namespace GridStream.Config
open Entries

variable {base entries m r es : Mapping} {key v : Value} {field : String}

/-! ## Merging without going deeper -/

/-- Where a layer takes the place of all that it meets, merging it is setting its keys. -/
theorem merge_eq_update (hbase : ∀ e ∈ base, e.1.isKey = true) (hentries : Distinct entries)
    (h : ∀ e ∈ entries, laid (base.get? e.1) (e.1.same groupsKey) e.2 = .ok e.2) :
    merge base entries = .ok (base.update entries) := by
  induction entries generalizing base with
  | nil => rw [merge]; rfl
  | cons e entries ih =>
    obtain ⟨key, value⟩ := e
    obtain ⟨⟨hkey, hne⟩, hentries⟩ := Distinct.cons_iff.1 hentries
    rw [List.forall_mem_cons] at h
    have hput : ∀ e ∈ base.put key value, e.1.isKey = true := by
      rw [Mapping.put_eq]
      exact forall_key_put (P := fun v => v.isKey = true) hbase hkey
    refine merge_cons_eq_ok.2 ⟨value, h.1, ih hput hentries fun e he => ?_⟩
    have hget : (base.put key value).get? e.1 = base.get? e.1 := by
      rw [Mapping.put_eq, Mapping.get?_eq, get?_put hbase hkey, if_neg (by simp [hne e he])]
      rfl
    rw [hget]
    exact h.2 e he

/-- A section without mappings and species groups in it is laid over by setting keys. -/
theorem merge_flat (hbase : ∀ e ∈ base, e.1.isKey = true) (hflat : ∀ e ∈ base, e.2.map? = none)
    (hg : base.get? groupsKey = none) (hentries : Distinct entries) :
    merge base entries = .ok (base.update entries) := by
  refine merge_eq_update hbase hentries fun e _ => ?_
  cases hv : e.2 with
  | map es =>
    rw [laid.eq_def]
    dsimp only
    cases hb : base.get? e.1 with
    | none => rfl
    | some below =>
      obtain ⟨b, hmem, -, rfl⟩ := mem_of_get? hb
      have hleaf := hflat b hmem
      have hno : ¬ e.1.same groupsKey = true := fun hs => by
        rw [same_groupsKey_iff.1 hs, hg] at hb
        cases hb
      cases hb2 : b.2 with
      | map below => 
        rw [hb2] at hleaf
        cases hleaf
      | _ => simp [hno]
  | _ => rfl

theorem forall_key_merge {P : Value → Prop} (hbase : ∀ e ∈ base, P e.1)
    (hentries : ∀ e ∈ entries, P e.1) (h : merge base entries = .ok m) : ∀ e ∈ m, P e.1 := by
  induction entries generalizing base with
  | nil =>
    cases h
    exact hbase
  | cons e entries ih =>
    obtain ⟨key, value⟩ := e
    rw [List.forall_mem_cons] at hentries
    obtain ⟨x, -, h⟩ := merge_cons_eq_ok.1 h
    rw [Mapping.put_eq] at h
    exact ih (forall_key_put hbase hentries.1) hentries.2 h

/-! ## Settings over the defaults -/

/-- What becomes of a key of settings that are laid over the defaults. -/
inductive Completed (m r : Mapping) (key : Value) : Prop
  /-- The key is left out. -/
  | added (left_out : m.get? key = none) (get : r.get? key = defaults.get? key)
  /-- The key has no section, or the defaults do not have it. -/
  | kept {v : Value} (given : m.get? key = some v) (get : r.get? key = some v)
    (apart : v.map? = none ∨ defaults.get? key = none)
  /-- The key has a section, which is laid over that of the defaults. -/
  | filled {es base : Mapping} (given : m.get? key = some (.map es))
    (default : defaults.get? key = some (.map base))
    (get : r.get? key = some (.map (base.update es)))

theorem completed (hm : m.Regular) (h : merge defaults m = .ok r) (key : Value) :
    Completed m r key := by
  have hkey := (get?_merge regular_defaults.distinct hm.distinct h).2 key
  cases hv : m.get? key with
  | none =>
    simp only [hv] at hkey
    exact .added hv hkey
  | some v =>
    simp only [hv] at hkey
    obtain ⟨x, hx, hr⟩ := hkey
    cases v with
    | map es =>
      have hes : Mapping.Regular es := hm.of_get? hv
      cases hd : defaults.get? key with
      | none =>
        rw [hd, laid] at hx
        cases hx
        exact .kept hv hr (.inr hd)
      | some below =>
        obtain ⟨e, he, -, rfl⟩ := mem_of_get? hd
        obtain ⟨base, hbase, hregular, hflat, hg⟩ := flat_defaults e he
        rw [hbase] at hd
        rw [hd, laid] at hx
        have hfilled : x = .map (base.update es) := by
          split at hx
          · exact (Except.ok.inj hx).symm
          · rw [merge_flat hregular.distinct.isKey hflat hg hes.distinct] at hx
            exact (Except.ok.inj hx).symm
        rw [hfilled] at hr
        exact .filled hv hd hr
    | _ =>
      rw [laid] at hx
      · cases hx
        exact .kept hv hr (.inl rfl)
      · intro es h
        cases h

/-! ## What is left out -/

/-- Every key of `base` is one of `es`. -/
def Covers (es base : Mapping) : Prop := ∀ k w, base.get? k = some w → ∃ v, es.get? k = some v

/-- Settings that leave out no setting that has a default. A section that is no mapping cannot leave
out anything. -/
def HasDefaults (m : Mapping) : Prop :=
  ∀ key base, defaults.get? key = some (.map base) →
    ∃ v, m.get? key = some v ∧ ∀ es, v = .map es → Covers es base

theorem named_defaults : Named defaults where
  distinct := regular_defaults.distinct
  texts := by simp [defaults, inputKey, processingKey, groupsKey]

/-- What has a default is a section. -/
theorem exists_default (h : defaults.get? key = some v) : ∃ base, v = .map base ∧ Named base := by
  obtain ⟨e, he, -, rfl⟩ := mem_of_get? h
  obtain ⟨base, hbase, hregular, -⟩ := flat_defaults e he
  refine ⟨base, hbase, hregular.distinct, ?_⟩
  simp only [defaults, List.mem_cons, List.not_mem_nil, or_false] at he
  rcases he with rfl | rfl | rfl
  · cases hbase
    simp
  · cases hbase
    simp
  · cases hbase
    simp

/-- A section that is laid over another one stays equal to itself exactly if it has all keys of that
one. -/
theorem same_update_iff (hbase : Named base) (hes : (Value.map es).Portable) :
    (Value.map (base.update es)).same (.map es) = true ↔ Covers es base := by
  have hupdate : Named (base.update es) := by
    rw [Mapping.update_eq]
    exact hbase.update hes.named
  have hget : ∀ k, (base.update es).get? k = (es.get? k).or (base.get? k) := fun k =>
    Mapping.get?_update hbase.distinct.isKey hes.named.distinct
  constructor
  · intro hsame k w hw
    cases hv : es.get? k with
    | some v => exact ⟨v, rfl⟩
    | none =>
      have hk := hget k
      rw [hv, hw] at hk
      obtain ⟨v, hv', -⟩ := Mapping.get?_of_same hupdate hes.named hsame hk
      rw [hv] at hv'
      cases hv'
  · intro hcovers
    have heq : ∀ k, (base.update es).get? k = es.get? k := fun k => by
      rw [hget]
      cases hw : base.get? k with
      | none => rw [Option.or_none]
      | some w =>
        obtain ⟨v, hv⟩ := hcovers k w hw
        rw [hv]
        rfl
    refine Mapping.same_of_get? hupdate hes.named (fun k v hv => ?_) fun k w hw => ?_
    · rw [heq] at hv
      exact ⟨v, hv, (hes.of_get? hv).same_self⟩
    · exact ⟨w, (heq k).trans hw⟩

theorem named_completed (hm : (Value.map m).Portable) (h : merge defaults m = .ok r) : Named r where
  distinct := (get?_merge regular_defaults.distinct hm.named.distinct h).1
  texts := forall_key_merge (P := fun v => ∃ s, v = .text s) named_defaults.texts hm.named.texts h

theorem hasDefaults_of_same (hm : (Value.map m).Portable) (h : merge defaults m = .ok r)
    (hsame : (Value.map r).same (.map m) = true) : HasDefaults m := by
  have hr := named_completed hm h
  intro key base hbase
  cases completed hm.regular h key with
  | added left_out get =>
    obtain ⟨w, hw, -⟩ := Mapping.get?_of_same hr hm.named hsame (get.trans hbase)
    rw [left_out] at hw
    cases hw
  | kept given get apart =>
    refine ⟨_, given, fun es hes => ?_⟩
    rcases apart with hleaf | hno
    · rw [hes] at hleaf
      cases hleaf
    · rw [hno] at hbase
      cases hbase
  | @filled es _ given default get =>
    cases hbase.symm.trans default
    obtain ⟨_, heq, hnamed⟩ := exists_default default
    cases heq
    obtain ⟨w, hw, hsection⟩ := Mapping.get?_of_same hr hm.named hsame get
    cases given.symm.trans hw
    refine ⟨_, given, fun es heq => ?_⟩
    cases heq
    exact (same_update_iff hnamed (hm.of_get? given)).1 hsection

/-- What is under a key after no default was added is equal to what was there before. -/
theorem exists_same_of_hasDefaults (hm : (Value.map m).Portable) (h : merge defaults m = .ok r)
    (hdefaults : HasDefaults m) (hv : r.get? key = some v) :
    ∃ w, m.get? key = some w ∧ v.same w = true := by
  cases completed hm.regular h key with
  | added left_out get =>
    obtain ⟨base, rfl, -⟩ := exists_default (get.symm.trans hv)
    obtain ⟨w, hw, -⟩ := hdefaults key base (get.symm.trans hv)
    rw [left_out] at hw
    cases hw
  | kept given get apart =>
    cases get.symm.trans hv
    exact ⟨v, given, (hm.of_get? given).same_self⟩
  | filled given default get =>
    cases get.symm.trans hv
    obtain ⟨_, heq, hnamed⟩ := exists_default default
    cases heq
    obtain ⟨w, hw, hcovers⟩ := hdefaults key _ default
    cases given.symm.trans hw
    exact ⟨_, given, (same_update_iff hnamed (hm.of_get? given)).2 (hcovers _ rfl)⟩

/-- Laying settings over the defaults changes nothing exactly if they leave out no default. -/
theorem same_completed_iff (hm : (Value.map m).Portable) (h : merge defaults m = .ok r) :
    (Value.map r).same (.map m) = true ↔ HasDefaults m := by
  refine ⟨hasDefaults_of_same hm h, fun hdefaults => ?_⟩
  refine Mapping.same_of_get? (named_completed hm h) hm.named
    (fun key v hv => exists_same_of_hasDefaults hm h hdefaults hv) fun key w hw => ?_
  cases completed hm.regular h key with
  | added left_out get =>
    rw [left_out] at hw
    cases hw
  | kept given get apart => exact ⟨_, get⟩
  | filled given default get => exact ⟨_, get⟩

/-! ## Layers that leave out nothing -/

/-- What has a default is a section of settings, or the species groups, of which there are none. -/
theorem default_cases (h : defaults.get? key = some (.map base)) :
    key ∈ [inputKey, processingKey] ∨ key = groupsKey ∧ base = [] := by
  have hmem := named_defaults.mem_iff.2 h
  simp only [defaults, List.mem_cons, List.not_mem_nil, or_false, Prod.mk.injEq] at hmem ⊢
  rcases hmem with ⟨rfl, -⟩ | ⟨rfl, -⟩ | ⟨rfl, hbase⟩
  · exact .inl (.inl rfl)
  · exact .inl (.inr rfl)
  · cases hbase
    exact .inr ⟨rfl, rfl⟩

/-- Merging keeps all keys. -/
theorem covers_merge (hbase : Distinct base) (hentries : Distinct entries)
    (h : merge base entries = .ok m) : Covers m base := by
  intro k w hw
  have hk := (get?_merge hbase hentries h).2 k
  cases hv : entries.get? k with
  | none =>
    simp only [hv] at hk
    exact ⟨w, hk.trans hw⟩
  | some v =>
    simp only [hv] at hk
    obtain ⟨x, -, hx⟩ := hk
    exact ⟨x, hx⟩

/-- A layer with mappings in the places of the sections about input and processing. -/
def KeepsSections (layer : Mapping) : Prop :=
  ∀ key ∈ [inputKey, processingKey], ∀ v, layer.get? key = some v → ∃ entries, v = .map entries

/-- Settings that leave out no default, and have mappings in the places of the sections. -/
structure Whole (m : Mapping) : Prop where
  hasDefaults : HasDefaults m
  sections : ∀ key ∈ [inputKey, processingKey], ∃ es, m.get? key = some (.map es)

theorem whole_defaults : Whole defaults where
  hasDefaults key base hbase := ⟨_, hbase, fun es heq => by
    cases heq
    exact fun k w hw => ⟨w, hw⟩⟩
  sections key hkey := by
    simp only [List.mem_cons, List.not_mem_nil, or_false] at hkey
    rcases hkey with rfl | rfl
    · exact ⟨_, rfl⟩
    · exact ⟨_, rfl⟩

/-- A layer with such sections loses no key of a section below it. -/
theorem exists_section_merge (hregular : m.Regular) (hentries : Mapping.Regular entries)
    (hkeeps : KeepsSections entries) (h : merge m entries = .ok r)
    (hkey : key ∈ [inputKey, processingKey]) (hes : m.get? key = some (.map es)) :
    ∃ es', r.get? key = some (.map es') ∧ Covers es' es := by
  have hk := (get?_merge hregular.distinct hentries.distinct h).2 key
  cases hv : entries.get? key with
  | none =>
    simp only [hv] at hk
    exact ⟨es, hk.trans hes, fun k w hw => ⟨w, hw⟩⟩
  | some v =>
    simp only [hv] at hk
    obtain ⟨x, hx, hget⟩ := hk
    obtain ⟨layer, rfl⟩ := hkeeps key hkey v hv
    have hgroups : groupsKey.same key = false := by
      simp only [List.mem_cons, List.not_mem_nil, or_false] at hkey
      rcases hkey with rfl | rfl <;> rfl
    rw [hes, laid, if_neg (by simp [hgroups]), Attempt.bind_eq_ok] at hx
    obtain ⟨es', hmerge, hx⟩ := hx
    cases hx
    have hes : Mapping.Regular es := hregular.of_get? hes
    have hlayer : Mapping.Regular layer := hentries.of_get? hv
    exact ⟨es', hget, covers_merge hes.distinct hlayer.distinct hmerge⟩

/-- Laying a layer with such sections over settings leaves them whole. -/
theorem Whole.merge (hm : Whole m) (hregular : m.Regular) (hentries : Mapping.Regular entries)
    (hkeeps : KeepsSections entries) (h : merge m entries = .ok r) : Whole r := by
  constructor
  · intro key base hbase
    rcases default_cases hbase with hkey | ⟨rfl, rfl⟩
    · obtain ⟨es, hes⟩ := hm.sections key hkey
      obtain ⟨es', hes', hcovers⟩ := exists_section_merge hregular hentries hkeeps h hkey hes
      obtain ⟨v, hv, hdefaults⟩ := hm.hasDefaults key base hbase
      cases hes.symm.trans hv
      refine ⟨_, hes', fun es'' heq k w hw => ?_⟩
      cases heq
      obtain ⟨w, hw⟩ := hdefaults es rfl k w hw
      exact hcovers k w hw
    · obtain ⟨v, hv, -⟩ := hm.hasDefaults _ _ hbase
      obtain ⟨w, hw⟩ := covers_merge hregular.distinct hentries.distinct h _ v hv
      exact ⟨w, hw, fun es _ k w hw => by cases hw⟩
  · intro key hkey
    obtain ⟨es, hes⟩ := hm.sections key hkey
    obtain ⟨es', hes', -⟩ := exists_section_merge hregular hentries hkeeps h hkey hes
    exact ⟨es', hes'⟩

/-! ## The checks -/

/-- Each check looks at its section only. -/
theorem checkInput_congr (h : m.get? inputKey = r.get? inputKey) : checkInput m = checkInput r := by
  unfold checkInput sectionOf
  rw [h]

theorem checkGroups_congr (h : givenGroups m = givenGroups r) : checkGroups m = checkGroups r := by
  unfold checkGroups groupsOf
  rw [h]

/-- A section of the settings is laid over that of the defaults. -/
theorem section_completed (hm : m.Regular) (h : merge defaults m = .ok r)
    (hdefault : defaults.get? key = some (.map base)) (hgiven : m.get? key = some (.map es)) :
    r.get? key = some (.map (base.update es)) := by
  cases completed hm h key with
  | added left_out get =>
    rw [left_out] at hgiven
    cases hgiven
  | kept given get apart =>
    cases given.symm.trans hgiven
    rcases apart with hleaf | hno
    · cases hleaf
    · rw [hno] at hdefault
      cases hdefault
  | filled given default get =>
    cases given.symm.trans hgiven
    cases default.symm.trans hdefault
    exact get

theorem field?_update (hbase : Named base) (hes : Distinct es) (field : String) :
    (base.update es).field? field = (es.field? field).or (base.field? field) :=
  Mapping.get?_update hbase.distinct.isKey hes

/-- The values that are checked are as they were, since what is left out without failing the checks
has the default that stands for it. -/
theorem checkInput_completed (hm : m.Regular) (h : merge defaults m = .ok r)
    (hc : checkInput m = .ok ()) : checkInput r = .ok () := by
  obtain ⟨input, hi, htemplate, hintervals, hdates⟩ := checkInput_eq_ok.1 hc
  obtain ⟨base, hbase, hnull⟩ : ∃ base : Mapping, defaults.get? inputKey = some (.map base) ∧
      ∀ field ∈ ["path_template", "start_date", "end_date"],
        base.field? field = some .null := ⟨_, rfl, by simp; exact ⟨rfl, rfl, rfl⟩⟩
  obtain ⟨_, heq, hnamed⟩ := exists_default hbase
  cases heq
  have hes : Mapping.Regular input := hm.of_get? hi
  have hunset : ∀ field ∈ ["path_template", "start_date", "end_date"],
      setting (base.update input) field = setting input field := fun field hf => by
    rw [setting, setting, field?_update hnamed hes.distinct, hnull field hf]
    cases Mapping.field? input field <;> rfl
  have hset : ∀ field, Mapping.field? input field = some (setting input field) →
      setting (base.update input) field = setting input field := fun field hf => by
    rw [setting, field?_update hnamed hes.distinct, hf]
    rfl
  obtain ⟨record, file, hrecord, hfile, -⟩ := checkIntervals_eq_ok.1 hintervals
  refine checkInput_eq_ok.2 ⟨_, section_completed hm h hbase hi, ?_⟩
  rw [hunset "path_template" (by simp), hunset "start_date" (by simp), hunset "end_date" (by simp),
    hset "record_interval" (Configuration.field?_of_parseDuration hrecord),
    hset "file_interval" (Configuration.field?_of_parseDuration hfile)]
  exact ⟨htemplate, hintervals, hdates⟩

theorem checkProcessing_completed (hm : m.Regular) (h : merge defaults m = .ok r)
    (hc : checkProcessing m = .ok ()) : checkProcessing r = .ok () := by
  unfold checkProcessing at hc ⊢
  obtain ⟨processing, hp, hc⟩ := Attempt.bind_eq_ok.1 hc
  rw [sectionOf_eq_ok] at hp
  obtain ⟨base, hbase, hlevel, hreport⟩ : ∃ base : Mapping,
      defaults.get? processingKey = some (.map base) ∧
        base.field? "log_level" = some (.text "INFO") ∧
        base.field? "report_progress" = some (.bool true) := ⟨_, rfl, rfl, rfl⟩
  obtain ⟨_, heq, hnamed⟩ := exists_default hbase
  cases heq
  have hes : Mapping.Regular processing := hm.of_get? hp
  have hgetD : ∀ field d, base.field? field = some d →
      ((base.update processing).field? field).getD d =
        (Mapping.field? processing field).getD d := fun field d hd => by
    rw [field?_update hnamed hes.distinct, hd]
    cases Mapping.field? processing field <;> rfl
  refine Attempt.bind_eq_ok.2 ⟨_, sectionOf_eq_ok.2 (section_completed hm h hbase hp), ?_⟩
  rw [hgetD _ _ hlevel, hgetD _ _ hreport]
  exact hc

theorem givenGroups_completed (hm : m.Regular) (h : merge defaults m = .ok r) :
    givenGroups r = givenGroups m := by
  unfold givenGroups
  cases completed hm h groupsKey with
  | added left_out get =>
    rw [left_out, get]
    rfl
  | kept given get => rw [given, get]
  | filled given default get =>
    cases default
    have hes : Mapping.Regular _ := hm.of_get? given
    rw [given, get, Mapping.update_eq, update_of_distinct hes.distinct]

/-- Settings that pass the checks also pass them over the defaults. -/
theorem check_completed (hm : m.Regular) (h : merge defaults m = .ok r) (hc : check m = .ok ()) :
    check r = .ok () := by
  obtain ⟨hi, hp, hg⟩ := check_eq_ok.1 hc
  refine check_eq_ok.2 ⟨checkInput_completed hm h hi, checkProcessing_completed hm h hp, ?_⟩
  rw [checkGroups_congr (givenGroups_completed hm h), hg]

end GridStream.Config
