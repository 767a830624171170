import GridStream.Config.Basic
import GridStream.Proofs.Attempt

/-!
# What the checks of a configuration accept

Each check is described by what passes it (`Config.check_eq_ok`), and the defaults do
(`Config.check_defaults`). Whether a duration can be read does not depend on the name that it has in
messages (`parseDuration_label`).
-/

namespace GridStream

/-- The length of time that a value names, positive or not. -/
def spanNamed? : Value → Option Span
  | .span d => some d
  | v => (durationTerms? (Text.strip v.toText)).bind (Span.sum? default)

theorem spanNamed?_of_not_span {v : Value} (h : ∀ d, v ≠ .span d) :
    spanNamed? v = (durationTerms? (Text.strip v.toText)).bind (Span.sum? default) := by
  unfold spanNamed?
  split
  · exact absurd rfl (h _)
  · rfl

theorem parseDuration_eq_ok {label : String} {v : Value} {d : Span} :
    parseDuration label v = .ok d ↔ spanNamed? v = some d ∧ 0 < d.micros := by
  have hpos : ∀ span : Span, (if span.micros ≤ 0 then
      .error (.configuration s!"{label} must be positive, got '{v.toText}'"
        [("value", .text v.toText)]) else .ok span : Attempt Span) = .ok d ↔
      span = d ∧ 0 < d.micros := fun span => by
    split
    · next h => simpa using fun e => e ▸ h
    · next h => simpa using fun e => e ▸ Int.not_le.1 h
  unfold parseDuration
  split
  · next span => simpa [spanNamed?, bind, Except.bind] using hpos span
  · next hv =>
    rw [spanNamed?_of_not_span hv]
    cases ht : durationTerms? (Text.strip v.toText) with
    | none => simp [ht, bind, Except.bind]
    | some terms =>
      cases hs : Span.sum? default terms with
      | none => simp [ht, hs, bind, Except.bind]
      | some span => simpa [ht, hs, bind, Except.bind] using hpos span

theorem parseDuration_label {label : String} {v : Value} {d : Span} (label' : String)
    (h : parseDuration label v = .ok d) : parseDuration label' v = .ok d :=
  parseDuration_eq_ok.2 (parseDuration_eq_ok.1 h)

/-- A text of terms stands for their sum. -/
theorem parseDuration_text {label s : String} (terms : List DurationTerm) {d : Span}
    (h : durationTerms? (Text.strip s) = some terms) (hs : Span.sum? default terms = some d)
    (hd : 0 < d.micros) : parseDuration label (.text s) = .ok d := by
  have hnamed : spanNamed? (.text s) = (durationTerms? (Text.strip s)).bind (Span.sum? default) :=
    spanNamed?_of_not_span fun d e => by cases e
  rw [parseDuration_eq_ok, hnamed, h]
  exact ⟨hs, hd⟩

theorem parseDuration_hour {label : String} : parseDuration label (.text "1h") = .ok (.hours 1) :=
  parseDuration_text [⟨⟨['1'], []⟩, .hour⟩] (by cbv) (by decide +kernel) (by decide)

theorem parseDuration_day {label : String} : parseDuration label (.text "24h") = .ok (.hours 24) :=
  parseDuration_text [⟨⟨['2', '4'], []⟩, .hour⟩] (by cbv) (by decide +kernel) (by decide)

namespace Catalog

variable {names : List Value}

theorem reserved_eq_nil : reserved names = [] ↔ ∀ name ∈ names, find? name = none := by
  rw [reserved, ← List.length_eq_zero_iff, List.length_mergeSort, List.length_eq_zero_iff,
    List.filterMap_eq_nil_iff]
  simp only [Option.map_eq_none_iff]

end Catalog

namespace Config

variable {settings : Mapping} {entries : List (Value × Value)} {start stop record file : Value}
  {key : Value}

theorem sectionOf_eq_ok : sectionOf settings key = .ok entries ↔
    settings.get? key = some (.map entries) := by
  unfold sectionOf
  split
  · next es h => rw [h]; simp
  · next h => simpa using h entries

theorem checkTemplate_text {s : String} :
    checkTemplate (.text s) = .ok () ↔ Text.contains dateMark s = true := by
  have hs : (Value.text s).toText = s := rfl
  unfold checkTemplate
  dsimp only
  rw [hs]
  split <;> simp_all

theorem checkIntervals_eq_ok : checkIntervals record file = .ok () ↔
    ∃ r f, parseDuration "record_interval" record = .ok r ∧
      parseDuration "file_interval" file = .ok f ∧ r.micros ≤ f.micros ∧
        f.micros % r.micros = 0 := by
  unfold checkIntervals
  simp only [Attempt.bind_eq_ok]
  constructor
  · rintro ⟨r, hr, f, hf, h⟩
    refine ⟨r, f, hr, hf, ?_⟩
    split at h
    · cases h
    · next hle =>
      split at h
      · cases h
      · next hmod => exact ⟨Int.not_lt.1 hle, Decidable.not_not.1 hmod⟩
  · rintro ⟨r, f, hr, hf, hle, hmod⟩
    refine ⟨r, hr, f, hf, ?_⟩
    rw [if_neg (Int.not_lt.2 hle), if_neg (not_not_intro hmod)]

theorem checkIntervals_hour_day : checkIntervals (.text "1h") (.text "24h") = .ok () :=
  checkIntervals_eq_ok.2 ⟨_, _, parseDuration_hour, parseDuration_day, by decide, by decide⟩

theorem dateOf_eq_some {label : String} {v : Value} {t : Instant} :
    dateOf label v = .ok (some t) ↔ parseDate label v = .ok t := by
  unfold dateOf
  split
  · simp [parseDate]
  · cases parseDate label v <;> simp [Except.map]

theorem checkDates_eq_ok (hstart : start ≠ .null) (hstop : stop ≠ .null) :
    checkDates start stop = .ok () ↔
      ∃ a b, parseDate "start date" start = .ok a ∧ parseDate "end date" stop = .ok b ∧
        a ≤ b := by
  unfold checkDates
  split
  · exact absurd rfl hstart
  · exact absurd rfl hstop
  · simp only [Attempt.bind_eq_ok]
    constructor
    · rintro ⟨b?, hb, a?, ha, h⟩
      split at h
      · next b a =>
        refine ⟨a, b, dateOf_eq_some.1 ha, dateOf_eq_some.1 hb, ?_⟩
        split at h
        · cases h
        · next hlt => exact Nat.not_lt.1 hlt
      · cases h
      · cases h
    · rintro ⟨a, b, ha, hb, hle⟩
      exact ⟨some b, dateOf_eq_some.2 hb, some a, dateOf_eq_some.2 ha, if_neg (Nat.not_lt.2 hle)⟩

theorem checkInput_eq_ok : checkInput settings = .ok () ↔
    ∃ input, settings.get? inputKey = some (.map input) ∧
      checkTemplate (setting input "path_template") = .ok () ∧
      checkIntervals (setting input "record_interval") (setting input "file_interval") =
        .ok () ∧
      checkDates (setting input "start_date") (setting input "end_date") = .ok () := by
  unfold checkInput
  simp only [Attempt.bind_eq_ok, sectionOf_eq_ok]
  constructor
  · rintro ⟨input, hi, ⟨⟩, ht, ⟨⟩, hd, h⟩
    exact ⟨input, hi, ht, hd, h⟩
  · rintro ⟨input, hi, ht, hd, h⟩
    exact ⟨input, hi, (), ht, (), hd, h⟩

theorem forM_checkKey_eq_ok {items : List Value} :
    items.forM Value.checkKey = .ok () ↔ ∀ v ∈ items, v.isKey = true := by
  induction items with
  | nil => simp [pure, Except.pure]
  | cons v items ih =>
    have hv : Value.checkKey v = .ok () ↔ v.isKey = true := by
      unfold Value.checkKey
      split <;> simp_all
    rw [List.forall_mem_cons, ← ih, ← hv]
    simp only [List.forM_eq_forM, List.forM_cons, Attempt.bind_eq_ok]
    constructor
    · rintro ⟨⟨⟩, hv, hi⟩
      exact ⟨hv, hi⟩
    · rintro ⟨hv, hi⟩
      exact ⟨(), hv, hi⟩

/-- The species groups pass if their names are keys, but not of the catalogue, and if all of them
can be built. -/
theorem checkGroups_eq_ok : checkGroups settings = .ok () ↔
    ∃ entries gs, givenGroups settings = .map entries ∧ (∀ e ∈ entries, e.1.isKey = true) ∧
      (∀ e ∈ entries, Catalog.find? e.1 = none) ∧
      overriddenGroups Catalog.defaultGroups entries = .ok gs := by
  have hnames : ∀ entries : Mapping, searchedNames (.map entries) =
      (do (entries.map (·.1)).forM Value.checkKey; .ok (entries.map (·.1))) := fun _ => rfl
  unfold checkGroups
  simp only [Attempt.bind_eq_ok]
  constructor
  · rintro ⟨names, hn, h⟩
    split at h
    · cases h
    · next hreserved =>
      obtain ⟨gs, hgs, -⟩ := Attempt.bind_eq_ok.1 h
      unfold groupsOf at hgs
      split at hgs
      · next entries he =>
        rw [he, hnames, Attempt.bind_eq_ok] at hn
        obtain ⟨⟨⟩, hkeys, hn⟩ := hn
        cases hn
        rw [Decidable.not_not, Catalog.reserved_eq_nil, List.forall_mem_map] at hreserved
        rw [forM_checkKey_eq_ok, List.forall_mem_map] at hkeys
        exact ⟨entries, gs, he, hkeys, hreserved, hgs⟩
      · cases hgs
  · rintro ⟨entries, gs, he, hkeys, hreserved, hgs⟩
    refine ⟨entries.map (·.1), ?_, ?_⟩
    · rw [he, hnames, Attempt.bind_eq_ok]
      exact ⟨(), forM_checkKey_eq_ok.2 (List.forall_mem_map.2 hkeys), rfl⟩
    · rw [if_neg (not_not_intro (Catalog.reserved_eq_nil.2 (List.forall_mem_map.2 hreserved)))]
      refine Attempt.bind_eq_ok.2 ⟨gs, ?_, rfl⟩
      rw [groupsOf, he]
      exact hgs

theorem check_eq_ok : check settings = .ok () ↔
    checkInput settings = .ok () ∧ checkProcessing settings = .ok () ∧
      checkGroups settings = .ok () := by
  unfold check
  simp only [Attempt.bind_eq_ok]
  constructor
  · rintro ⟨⟨⟩, hi, ⟨⟩, hp, hg⟩
    exact ⟨hi, hp, hg⟩
  · rintro ⟨hi, hp, hg⟩
    exact ⟨(), hi, (), hp, hg⟩

/-- The defaults are accepted as they are. -/
theorem check_defaults : check defaults = .ok () :=
  check_eq_ok.2 ⟨checkInput_eq_ok.2 ⟨_, rfl, rfl, checkIntervals_hour_day, rfl⟩, rfl,
    checkGroups_eq_ok.2 ⟨[], Catalog.defaultGroups, rfl, by simp, by simp, rfl⟩⟩

end Config

namespace Configuration

theorem exists_ofSettings? {settings : Mapping} :
    (∃ c, ofSettings? settings = .ok c) ↔ Config.check settings = .ok () := by
  unfold ofSettings?
  split
  · next h => simp [h]
  · next h => simp [h]

end Configuration

end GridStream
