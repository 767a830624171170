import GridStream.Proofs.Config.Acceptance
import GridStream.Proofs.Config.Agreement
import GridStream.Proofs.Value.Regular

/-!
# Failures of other kinds

What is wrong with settings should be reported as such. Not all of it is: some operations are
applied to values that they do not work on, or run out of their range, and fail with a kind of
failure of their own. The checks do so for the settings that `Config.Unguarded` tells apart, and
give no account of a window in a time zone (`Config.escapes_check`).
-/

namespace GridStream
open Config Entries

/-- An attempt that fails with something else than what is wrong with a configuration. -/
def Attempt.Escapes {α : Type} (a : Attempt α) : Prop :=
  ∃ f, a = .error f ∧ f.kind ≠ .configuration

namespace Attempt

variable {α β : Type} {a : α} {f : Failure} {x : Attempt α} {g : α → Attempt β}

@[simp] theorem not_escapes_ok : ¬ Escapes (.ok a : Attempt α) := by
  simp [Escapes]

@[simp] theorem escapes_error : Escapes (.error f : Attempt α) ↔ f.kind ≠ .configuration := by
  simp [Escapes]

theorem escapes_bind : Escapes (x >>= g) ↔ Escapes x ∨ ∃ a, x = .ok a ∧ Escapes (g a) := by
  cases x <;> simp [Escapes, bind, Except.bind]

end Attempt

@[simp] theorem kind_noMapping {v : Value} :
    (noMapping v).kind ≠ .configuration := by
  simp [noMapping, Failure.noOperation]

/-! ## Dates and durations -/

variable {v start stop record file : Value} {label : String} {settings : Mapping}

/-- What clocks show in a time zone. -/
def Value.Zoned (v : Value) : Prop := ∃ t z, v = .zoned t z

/-- A date that is in no time zone is an instant, or is itself what is wrong. -/
theorem escapes_parseDate : (parseDate label v).Escapes ↔ v.Zoned := by
  unfold parseDate Value.Zoned
  split
  · simp
  · simp [Failure.undescribed]
  · next hzoned =>
    refine iff_of_false ?_ fun ⟨t, z, h⟩ => hzoned t z h
    dsimp only
    split
    · split <;> simp [Failure.configuration]
    · simp [Failure.configuration]

/-- A text of durations whose sum is too long to be a span. -/
def TooLong (v : Value) : Prop :=
  (∀ d, v ≠ .span d) ∧ ∃ terms, durationTerms? (Text.strip v.toText) = some terms ∧
    Span.sum? default terms = none

theorem escapes_parseDuration : (parseDuration label v).Escapes ↔ TooLong v := by
  have hpos : ∀ span : Span, ¬ (if span.micros ≤ 0 then
      .error (.configuration s!"{label} must be positive, got '{v.toText}'"
        [("value", .text v.toText)]) else .ok span : Attempt Span).Escapes := fun span => by
    split <;> simp [Failure.configuration]
  unfold parseDuration TooLong
  split
  · next span => simpa [bind, Except.bind] using hpos span
  · next hv =>
    cases ht : durationTerms? (Text.strip v.toText) with
    | none => simp [ht, bind, Except.bind, Failure.configuration]
    | some terms =>
      cases hs : Span.sum? default terms with
      | none => simpa [ht, hs, bind, Except.bind, Failure.outOfRange] using hv
      | some span => simpa [ht, hs, bind, Except.bind] using hpos span

namespace Config

theorem not_escapes_checkTemplate : ¬ (checkTemplate v).Escapes := by
  unfold checkTemplate
  split
  · simp
  · split <;> simp [Failure.configuration]

theorem escapes_checkIntervals : (checkIntervals record file).Escapes ↔
    TooLong record ∨ (∃ d, parseDuration "record_interval" record = .ok d) ∧ TooLong file := by
  have hfit : ∀ (r f : Span) (context : Context), ¬ (if f.micros < r.micros then
      .error (.configuration "file_interval must not be shorter than record_interval" context)
    else if f.micros % r.micros ≠ 0 then
      .error (.configuration "file_interval must be a whole multiple of record_interval" context)
    else .ok () : Attempt Unit).Escapes := fun r f context => by
    split
    · simp [Failure.configuration]
    · split <;> simp [Failure.configuration]
  unfold checkIntervals
  simp only [Attempt.escapes_bind, escapes_parseDuration, hfit, and_false, exists_false, or_false]
  exact or_congr_right ⟨fun ⟨d, hd, h⟩ => ⟨⟨d, hd⟩, h⟩, fun ⟨⟨d, hd⟩, h⟩ => ⟨d, hd, h⟩⟩

theorem not_escapes_dateOf : ¬ (dateOf label v).Escapes := by
  unfold dateOf
  split
  · simp
  · next hzoned =>
    have hread : ¬ (parseDate label v).Escapes :=
      mt escapes_parseDate.1 fun ⟨t, z, h⟩ => hzoned t z h
    cases h : parseDate label v with
    | ok t => simp [Except.map]
    | error f => simpa [h, Except.map] using hread

theorem dateOf_eq_none : dateOf label v = .ok none ↔ v.Zoned := by
  unfold dateOf Value.Zoned
  split
  · simp
  · next hzoned =>
    refine iff_of_false (fun h => ?_) fun ⟨t, z, h⟩ => hzoned t z h
    cases hv : parseDate label v <;> simp [hv, Except.map] at h

/-- Dates that cannot be compared: one of them is in a time zone, the other is not. -/
inductive Unordered (start stop : Value) : Prop
  | start {t : Instant} (zoned : start.Zoned) (read : parseDate "end date" stop = .ok t)
  | stop {t : Instant} (zoned : stop.Zoned) (read : parseDate "start date" start = .ok t)

theorem ne_null_of_parseDate {t : Instant} (h : parseDate label v = .ok t) : v ≠ .null := by
  rintro rfl
  cases h

theorem ne_null_of_zoned (h : v.Zoned) : v ≠ .null := by
  obtain ⟨t, z, rfl⟩ := h
  nofun

/-- Both dates are set if one of them is in a time zone and they are compared. -/
theorem ne_null_of_compared (h : Unordered start stop ∨ start.Zoned ∧ stop.Zoned) :
    start ≠ .null ∧ stop ≠ .null := by
  rcases h with h | ⟨hstart, hstop⟩
  · cases h with
    | start zoned read => exact ⟨ne_null_of_zoned zoned, ne_null_of_parseDate read⟩
    | stop zoned read => exact ⟨ne_null_of_parseDate read, ne_null_of_zoned zoned⟩
  · exact ⟨ne_null_of_zoned hstart, ne_null_of_zoned hstop⟩

theorem escapes_checkDates : (checkDates start stop).Escapes ↔
    Unordered start stop ∨ start.Zoned ∧ stop.Zoned := by
  unfold checkDates
  split
  · exact iff_of_false (by simp) fun h => (ne_null_of_compared h).1 rfl
  · exact iff_of_false (by simp) fun h => (ne_null_of_compared h).2 rfl
  · simp only [Attempt.escapes_bind, not_escapes_dateOf, false_or]
    constructor
    · rintro ⟨b?, hb, a?, ha, h⟩
      cases b? with
      | none =>
        cases a? with
        | none => exact .inr ⟨dateOf_eq_none.1 ha, dateOf_eq_none.1 hb⟩
        | some a => exact .inl (.stop (dateOf_eq_none.1 hb) (dateOf_eq_some.1 ha))
      | some b =>
        cases a? with
        | none => exact .inl (.start (dateOf_eq_none.1 ha) (dateOf_eq_some.1 hb))
        | some a =>
          revert h
          dsimp only
          split <;> simp [Failure.configuration]
    · rintro (h | ⟨ha, hb⟩)
      · cases h with
        | start zoned read =>
          exact ⟨_, dateOf_eq_some.2 read, none, dateOf_eq_none.2 zoned, by
            simp [Failure.wrongType]⟩
        | stop zoned read =>
          exact ⟨none, dateOf_eq_none.2 zoned, _, dateOf_eq_some.2 read, by
            simp [Failure.wrongType]⟩
      · exact ⟨none, dateOf_eq_none.2 hb, none, dateOf_eq_none.2 ha, by
          simp [Failure.undescribed]⟩

/-- The dates of a window that is in a time zone. -/
theorem checkDates_of_zoned (hstart : start.Zoned) (hstop : stop.Zoned) :
    checkDates start stop = .error (.undescribed "a window in a time zone") := by
  obtain ⟨t, z, rfl⟩ := hstart
  obtain ⟨u, y, rfl⟩ := hstop
  rfl

theorem escapes_sectionOf {key : Value} : (sectionOf settings key).Escapes ↔
    ∀ entries, settings.get? key ≠ some (.map entries) := by
  unfold sectionOf
  split
  · next es h => simp [h]
  · next h => simpa using h

/-- The template and the intervals of the section about input are fine, so that the dates are
checked. -/
structure ReachesDates (settings input : Mapping) : Prop where
  get : settings.get? inputKey = some (.map input)
  template : checkTemplate (setting input "path_template") = .ok ()
  intervals :
    checkIntervals (setting input "record_interval") (setting input "file_interval") = .ok ()

/-- Checking the section about input gets stuck if it is no mapping, if the first interval that
cannot be read is too long, or at the dates. -/
theorem escapes_checkInput : (checkInput settings).Escapes ↔
    (∀ entries, settings.get? inputKey ≠ some (.map entries)) ∨
      (∃ input, settings.get? inputKey = some (.map input) ∧
        checkTemplate (setting input "path_template") = .ok () ∧
        (TooLong (setting input "record_interval") ∨
          (∃ d, parseDuration "record_interval" (setting input "record_interval") = .ok d) ∧
            TooLong (setting input "file_interval"))) ∨
      ∃ input, ReachesDates settings input ∧
        (checkDates (setting input "start_date") (setting input "end_date")).Escapes := by
  unfold checkInput
  simp only [Attempt.escapes_bind, escapes_sectionOf, not_escapes_checkTemplate,
    escapes_checkIntervals, sectionOf_eq_ok, false_or]
  refine or_congr_right ⟨?_, ?_⟩
  · rintro ⟨input, hi, ⟨⟩, ht, hlong | ⟨⟨⟩, hintervals, hdates⟩⟩
    · exact .inl ⟨input, hi, ht, hlong⟩
    · exact .inr ⟨input, ⟨hi, ht, hintervals⟩, hdates⟩
  · rintro (⟨input, hi, ht, hlong⟩ | ⟨input, ⟨hi, ht, hintervals⟩, hdates⟩)
    · exact ⟨input, hi, (), ht, .inl hlong⟩
    · exact ⟨input, hi, (), ht, .inr ⟨(), hintervals, hdates⟩⟩

/-- Settings with a window in a time zone. -/
def InZone (settings : Mapping) : Prop :=
  ∃ input, ReachesDates settings input ∧
    (setting input "start_date").Zoned ∧ (setting input "end_date").Zoned

theorem check_of_inZone (h : InZone settings) :
    check settings = .error (.undescribed "a window in a time zone") := by
  obtain ⟨input, ⟨hi, ht, hintervals⟩, hstart, hstop⟩ := h
  unfold check checkInput sectionOf
  simp only [hi, ht, hintervals, checkDates_of_zoned hstart hstop, bind, Except.bind]

theorem escapes_checkProcessing : (checkProcessing settings).Escapes ↔
    ∀ entries, settings.get? processingKey ≠ some (.map entries) := by
  unfold checkProcessing
  simp only [Attempt.escapes_bind, escapes_sectionOf]
  refine or_iff_left ?_
  rintro ⟨processing, -, h⟩
  revert h
  split
  · simp [Failure.configuration]
  · split <;> simp [Failure.configuration]

end Config

/-! ## Species groups -/

theorem Value.map?_eq_some {entries : Mapping} : v.map? = some entries ↔ v = .map entries := by
  cases v <;> simp [Value.map?]

/-- An integer that does not fit into 64 bits, with or without a sign. -/
def Oversized (v : Value) : Prop := ∃ n, v = .int n ∧ (n < -Int.pow 2 63 ∨ Int.pow 2 64 ≤ n)

theorem escapes_weight : (Weight.ofValue? v).Escapes ↔ Oversized v := by
  unfold Weight.ofValue? Oversized
  split
  · next n =>
    have hrange : ¬ (-Int.pow 2 63 ≤ n ∧ n < Int.pow 2 64) ↔
        n < -Int.pow 2 63 ∨ Int.pow 2 64 ≤ n := by omega
    split
    · next h =>
      simp only [Attempt.not_escapes_ok, Value.int.injEq, exists_eq_left', false_iff]
      exact mt hrange.2 (not_not_intro h)
    · next h =>
      simp only [Attempt.escapes_error, Value.int.injEq, exists_eq_left']
      exact iff_of_true (by simp [Failure.wrongType]) (hrange.1 h)
  · simp
  · next hint _ => simpa using fun n hn => absurd hn (hint n)

namespace SpeciesGroup

variable {name member weight : Value} {seen : List String} {members : List (Value × Value)}

theorem escapes_checkMember : (checkMember name seen member weight).Escapes ↔
    ∃ s, member = .text s ∧ s ≠ "" ∧ s ∉ seen ∧ Oversized weight := by
  unfold checkMember checkMember.badName
  split
  · next s =>
    split
    · next hs => simp [hs, Failure.configuration]
    · next hs =>
      split
      · next hseen => simp [hseen, Failure.configuration]
      · next hseen =>
        rw [Attempt.escapes_bind, escapes_weight]
        simp only [Value.text.injEq, exists_eq_left', ne_eq, hs, not_false_eq_true, hseen, true_and]
        refine or_iff_left ?_
        rintro ⟨w?, -, h⟩
        revert h
        cases w? <;> simp [Failure.configuration]
  · next hmember =>
    simp only [Attempt.escapes_error, Failure.configuration, ne_eq, not_true_eq_false, false_iff]
    rintro ⟨s, rfl, -⟩
    exact hmember s rfl

/-- A weight behind members that are fine, which does not fit into 64 bits. -/
def HasOversized (name : Value) (seen : List String) (members : List (Value × Value)) : Prop :=
  ∃ before s weight after checked, members = before ++ (.text s, weight) :: after ∧
    checkMembers name seen before = .ok checked ∧ s ≠ "" ∧ s ∉ seen ∧
      s ∉ checked.map (·.1) ∧ Oversized weight

theorem escapes_checkMembers :
    (checkMembers name seen members).Escapes ↔ HasOversized name seen members := by
  induction members generalizing seen with
  | nil => simp [checkMembers, HasOversized]
  | cons e rest ih =>
    obtain ⟨member, weight⟩ := e
    simp only [checkMembers, Attempt.escapes_bind, escapes_checkMember, ih, Attempt.not_escapes_ok,
      and_false, exists_false, or_false]
    constructor
    · rintro (⟨s, rfl, hs, hseen, hw⟩ |
        ⟨c, hc, before, s, w, after, checked, rfl, hb, hs, hseen, hne, hw⟩)
      · exact ⟨[], s, weight, rest, [], rfl, rfl, hs, hseen, by simp, hw⟩
      · rw [List.mem_cons, not_or] at hseen
        refine ⟨(member, weight) :: before, s, w, after, c :: checked, rfl, ?_, hs, hseen.2, ?_, hw⟩
        · exact Attempt.bind_eq_ok.2 ⟨c, hc, Attempt.bind_eq_ok.2 ⟨checked, hb, rfl⟩⟩
        · simpa using ⟨hseen.1, by simpa using hne⟩
    · rintro ⟨before, s, w, after, checked, heq, hb, hs, hseen, hne, hw⟩
      cases before with
      | nil =>
        cases heq
        exact .inl ⟨s, rfl, hs, hseen, hw⟩
      | cons e before =>
        cases heq
        obtain ⟨c, hc, hb⟩ := Attempt.bind_eq_ok.1 hb
        obtain ⟨others, ho, hb⟩ := Attempt.bind_eq_ok.1 hb
        cases hb
        rw [List.map_cons, List.mem_cons, not_or] at hne
        exact .inr ⟨c, hc, before, s, w, after, others, rfl, ho, hs,
          by simpa using ⟨hne.1, hseen⟩, hne.2, hw⟩

theorem escapes_ofValue? (units : String) : (ofValue? name v units).Escapes ↔
    ∃ members, v = .map members ∧ HasOversized name [] members := by
  unfold ofValue? make?
  split
  · split
    · simp [Failure.configuration, HasOversized]
    · simp [Attempt.escapes_bind, escapes_checkMembers]
  · next hv => simpa [Failure.configuration] using fun m hm => absurd hm (hv m)

end SpeciesGroup

namespace Config

variable {gs : SpeciesGroups} {entries : List (Value × Value)}

/-- A group behind groups that are fine, which has a weight that does not fit into 64 bits. -/
def HasOversizedGroup (entries : List (Value × Value)) : Prop :=
  ∃ before name members after, entries = before ++ (name, .map members) :: after ∧
    (∀ e ∈ before, ∃ g, SpeciesGroup.ofValue? e.1 e.2 = .ok g) ∧
      SpeciesGroup.HasOversized name [] members

theorem escapes_overriddenGroups :
    (overriddenGroups gs entries).Escapes ↔ HasOversizedGroup entries := by
  induction entries generalizing gs with
  | nil => simp [overriddenGroups, HasOversizedGroup]
  | cons e rest ih =>
    obtain ⟨name, v⟩ := e
    simp only [overriddenGroups, Attempt.escapes_bind, SpeciesGroup.escapes_ofValue?, ih]
    constructor
    · rintro (⟨members, rfl, h⟩ | ⟨g, hg, before, name', members, after, rfl, hb, h⟩)
      · exact ⟨[], name, members, rest, rfl, by simp, h⟩
      · exact ⟨(name, v) :: before, name', members, after, rfl,
          List.forall_mem_cons.2 ⟨(SpeciesGroup.exists_ofValue? _).1 ⟨g, hg⟩, hb⟩, h⟩
    · rintro ⟨before, name', members, after, heq, hb, h⟩
      cases before with
      | nil =>
        cases heq
        exact .inl ⟨members, rfl, h⟩
      | cons e before =>
        cases heq
        rw [List.forall_mem_cons] at hb
        obtain ⟨g, hg⟩ := (SpeciesGroup.exists_ofValue? _).2 hb.1
        exact .inr ⟨g, hg, before, name', members, after, rfl, hb.2, h⟩

theorem searchedNames_eq_ok {names : List Value} : searchedNames v = .ok names ↔
    v.items? = some names ∧ ∀ i ∈ names, i.isKey = true := by
  unfold searchedNames
  cases v.items? with
  | none => simp
  | some items =>
    rw [Attempt.bind_eq_ok]
    constructor
    · rintro ⟨⟨⟩, hi, h⟩
      cases h
      exact ⟨rfl, forM_checkKey_eq_ok.1 hi⟩
    · rintro ⟨h, hi⟩
      cases h
      exact ⟨(), forM_checkKey_eq_ok.2 hi, rfl⟩

theorem escapes_forM_checkKey {items : List Value} :
    (items.forM Value.checkKey).Escapes ↔ items.forM Value.checkKey ≠ .ok () := by
  induction items with
  | nil => simp [pure, Except.pure]
  | cons i items ih =>
    have hi : Value.checkKey i = .ok () ∨ (Value.checkKey i).Escapes ∧
        ∀ a, Value.checkKey i ≠ .ok a := by
      unfold Value.checkKey
      cases i.isKey <;> simp [Failure.wrongType]
    have hbind : (i :: items).forM Value.checkKey =
      (do Value.checkKey i; items.forM Value.checkKey) := rfl
    rw [hbind, Attempt.escapes_bind, ne_eq, Attempt.bind_eq_ok, ih]
    rcases hi with hi | ⟨hi, hne⟩
    · simp [hi]
    · exact iff_of_true (.inl hi) fun ⟨a, ha, _⟩ => hne a ha

theorem escapes_searchedNames :
    (searchedNames v).Escapes ↔ ∀ names, searchedNames v ≠ .ok names := by
  unfold searchedNames
  cases v.items? with
  | none => simp [Failure.wrongType]
  | some items =>
    simp only [Attempt.escapes_bind, escapes_forM_checkKey]
    cases items.forM Value.checkKey <;> simp [bind, Except.bind]

/-- Species groups that are no mapping and do not name a quantity, or cannot be searched for one. -/
structure NoTable (v : Value) : Prop where
  no_map : v.map? = none
  unnamed : ∀ names, v.items? = some names → (∀ i ∈ names, i.isKey = true) →
    ∀ i ∈ names, Catalog.find? i = none

/-- The names of species groups are searched for those of the catalogue before the groups are
built. -/
theorem escapes_checkGroups_searched : (checkGroups settings).Escapes ↔
    (∀ names, searchedNames (givenGroups settings) ≠ .ok names) ∨
      ∃ names, searchedNames (givenGroups settings) = .ok names ∧
        (∀ i ∈ names, Catalog.find? i = none) ∧ (groupsOf settings).Escapes := by
  unfold checkGroups
  simp only [Attempt.escapes_bind, escapes_searchedNames]
  refine or_congr_right (exists_congr fun names => and_congr_right fun _ => ?_)
  rw [← Catalog.reserved_eq_nil]
  split
  · next h => simp [h, Catalog.reservedFailure, Failure.configuration]
  · next h =>
    rw [Decidable.not_not] at h
    simp [h, Attempt.escapes_bind]

theorem escapes_groupsOf_of_no_map (h : (givenGroups settings).map? = none) :
    (groupsOf settings).Escapes := by
  unfold groupsOf
  split
  · next hmap =>
    rw [hmap] at h
    cases h
  · simp

/-- Groups that are no mapping are not built, so that nothing but a name of the catalogue is
reported. -/
theorem escapes_checkGroups_of_no_map (h : (givenGroups settings).map? = none) :
    (checkGroups settings).Escapes ↔ NoTable (givenGroups settings) := by
  rw [escapes_checkGroups_searched]
  constructor
  · intro hsearched
    refine ⟨h, fun names hn hk => ?_⟩
    have hok := searchedNames_eq_ok.2 ⟨hn, hk⟩
    rcases hsearched with hno | ⟨names', hok', hfree, -⟩
    · exact absurd hok (hno names)
    · cases hok.symm.trans hok'
      exact hfree
  · intro htable
    cases hs : searchedNames (givenGroups settings) with
    | error f =>
      refine .inl fun names hok => ?_
      cases hok
    | ok names =>
      obtain ⟨hn, hk⟩ := searchedNames_eq_ok.1 hs
      exact .inr ⟨names, rfl, htable.unnamed names hn hk, escapes_groupsOf_of_no_map h⟩

theorem escapes_checkGroups (hkeys : ∀ entries, givenGroups settings = .map entries →
    ∀ e ∈ entries, e.1.isKey = true) : (checkGroups settings).Escapes ↔
      NoTable (givenGroups settings) ∨
        ∃ entries, givenGroups settings = .map entries ∧
          (∀ e ∈ entries, Catalog.find? e.1 = none) ∧ HasOversizedGroup entries := by
  cases hmap : (givenGroups settings).map? with
  | some entries =>
    have hgiven : givenGroups settings = .map entries := Value.map?_eq_some.1 hmap
    have hnames : searchedNames (.map entries) = .ok (entries.map (·.1)) :=
      searchedNames_eq_ok.2 ⟨rfl, fun i hi => by
        obtain ⟨e, he, rfl⟩ := List.mem_map.1 hi
        exact hkeys entries hgiven e he⟩
    have hno : ¬ NoTable (.map entries) := fun h => by cases h.no_map
    rw [escapes_checkGroups_searched, groupsOf, hgiven]
    simp [hnames, hno, escapes_overriddenGroups]
  | none =>
    have hnever : ¬ ∃ entries, givenGroups settings = .map entries ∧
        (∀ e ∈ entries, Catalog.find? e.1 = none) ∧ HasOversizedGroup entries := by
      rintro ⟨entries, h, -⟩
      rw [h] at hmap
      cases hmap
    rw [or_iff_left hnever, escapes_checkGroups_of_no_map hmap]

/-- Settings for which the checks fail with something else than what is wrong with them. -/
inductive Unguarded (settings : Mapping) : Prop
  /-- The section about input is no mapping. -/
  | input (no_map : ∀ entries, settings.get? inputKey ≠ some (.map entries))
  /-- The template is fine, and the first interval that cannot be read is too long. -/
  | interval {entries : Mapping} (get : settings.get? inputKey = some (.map entries))
    (template : checkTemplate (setting entries "path_template") = .ok ())
    (too_long : TooLong (setting entries "record_interval") ∨
      (∃ d, parseDuration "record_interval" (setting entries "record_interval") = .ok d) ∧
        TooLong (setting entries "file_interval"))
  /-- Template and intervals are fine, and one of the dates is in a time zone, the other in none. -/
  | dates {entries : Mapping} (reached : ReachesDates settings entries)
    (unordered : Unordered (setting entries "start_date") (setting entries "end_date"))
  /-- The section about input is fine, and that about processing is no mapping. -/
  | processing (input : checkInput settings = .ok ())
    (no_map : ∀ entries, settings.get? processingKey ≠ some (.map entries))
  /-- Both sections are fine, and the species groups are no mapping. -/
  | groups (input : checkInput settings = .ok ()) (processing : checkProcessing settings = .ok ())
    (no_table : NoTable (givenGroups settings))
  /-- All is fine up to a weight that does not fit into 64 bits. -/
  | weight {entries : Mapping} (input : checkInput settings = .ok ())
    (processing : checkProcessing settings = .ok ())
    (given : givenGroups settings = .map entries)
    (free : ∀ e ∈ entries, Catalog.find? e.1 = none) (oversized : HasOversizedGroup entries)

theorem escapes_check (h : settings.Regular) :
    (check settings).Escapes ↔ Unguarded settings ∨ InZone settings := by
  have hkeys : ∀ entries, givenGroups settings = .map entries →
      ∀ e ∈ entries, e.1.isKey = true := fun entries hgiven => by
    unfold givenGroups at hgiven
    dsimp only at hgiven
    split at hgiven
    · cases hget : settings.get? groupsKey with
      | none =>
        rw [hget] at hgiven
        cases hgiven
      | some v =>
        rw [hget] at hgiven
        cases hgiven
        exact (Mapping.Regular.distinct (h.of_get? hget)).isKey
    · cases hgiven
      simp
  unfold check
  simp only [Attempt.escapes_bind, escapes_checkInput, escapes_checkProcessing,
    escapes_checkGroups hkeys, escapes_checkDates]
  constructor
  · rintro ((hno | ⟨input, hi, ht, hlong⟩ | ⟨input, hreached, hunordered | hzoned⟩) |
      ⟨⟨⟩, hinput, hno | ⟨⟨⟩, hprocessing, hno | ⟨entries, hgiven, hfree, hover⟩⟩⟩)
    · exact .inl (.input hno)
    · exact .inl (.interval hi ht hlong)
    · exact .inl (.dates hreached hunordered)
    · exact .inr ⟨input, hreached, hzoned⟩
    · exact .inl (.processing hinput hno)
    · exact .inl (.groups hinput hprocessing hno)
    · exact .inl (.weight hinput hprocessing hgiven hfree hover)
  · rintro (h | ⟨input, hreached, hzoned⟩)
    swap
    · exact .inl (.inr (.inr ⟨input, hreached, .inr hzoned⟩))
    cases h with
    | input hno => exact .inl (.inl hno)
    | interval hi ht hlong => exact .inl (.inr (.inl ⟨_, hi, ht, hlong⟩))
    | dates hreached hunordered => exact .inl (.inr (.inr ⟨_, hreached, .inl hunordered⟩))
    | processing hinput hno => exact .inr ⟨(), hinput, .inl hno⟩
    | groups hinput hprocessing hno => exact .inr ⟨(), hinput, .inr ⟨(), hprocessing, .inl hno⟩⟩
    | weight hinput hprocessing hgiven hfree hover =>
      exact .inr ⟨(), hinput, .inr ⟨(), hprocessing, .inr ⟨_, hgiven, hfree, hover⟩⟩⟩

end Config

/-- What is accepted has no window in a time zone. -/
theorem Configuration.not_inZone (c : Configuration) : ¬ Config.InZone c.settings := fun h => by
  cases (Config.check_of_inZone h).symm.trans c.checked

end GridStream
