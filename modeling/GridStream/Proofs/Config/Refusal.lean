import GridStream.Proofs.Config.Escape
import GridStream.Proofs.Document.Json.Number

/-!
# What keeps a run from being made

From an accepted configuration a run can be made unless the template or a date is missing, or the
template is no text and lacks the mark of a date. In all these cases but one it is the configuration
that is found wrong (`Configuration.escapes_run`).

The template is checked twice. A configuration looks for the mark of a date in what the template is
written as, and a run in the template itself, which fails for values that cannot be searched. Of
these only bytes may be written with an opening bracket (`Value.searched_of_mark`): a template of
bytes with the mark is accepted, and making a run from it fails in a way of its own.
-/

namespace GridStream

namespace Text

theorem containsChars_iff {pattern cs : List Char} :
    containsChars pattern cs = true ↔ pattern <:+: cs := by
  induction cs with
  | nil => simp [containsChars]
  | cons c cs ih => rw [containsChars, Bool.or_eq_true, ih, List.isPrefixOf_iff_prefix,
      List.infix_cons_iff]

/-- A text has all characters of the texts that it contains. -/
theorem mem_of_contains {pattern s : String} {c : Char} (h : contains pattern s = true)
    (hc : c ∈ pattern.toList) : c ∈ s.toList :=
  (containsChars_iff.1 h).mem hc

end Text

/-! ## Values that are written without brackets -/

/-- No opening bracket. -/
abbrev Unbracketed (s : String) : Prop := '[' ∉ s.toList

theorem Unbracketed.append {s t : String} (hs : Unbracketed s) (ht : Unbracketed t) :
    Unbracketed (s ++ t) := by
  rw [Unbracketed, String.toList_append, List.mem_append, not_or]
  exact ⟨hs, ht⟩

theorem unbracketed_of_isNumeral {s : String} (h : ∀ c ∈ s.toList, Json.IsNumeral c) :
    Unbracketed s := fun hc => absurd (h _ hc) (by decide)

theorem unbracketed_zeroPadded (width n : Nat) : Unbracketed (Text.zeroPadded width n) := by
  refine unbracketed_of_isNumeral ?_
  unfold Text.zeroPadded Text.padLeft
  simp only [String.toList_append, String.toList_ofList, Nat.toString_eq_ofList_toDigits,
    List.forall_mem_append]
  exact ⟨Json.isNumeral_replicate _, Json.isNumeral_toDigits _⟩

theorem unbracketed_shortest (x : Float) : Unbracketed (Decimal.shortest x) := by
  unfold Decimal.shortest
  split
  · decide
  · split <;> decide
  · next h =>
    have hfinite : Decimal.isFinite x = true := by rw [Decimal.isFinite, h]
    have hshort := unbracketed_of_isNumeral (Json.isNumeral_shortest hfinite)
    rwa [Decimal.shortest, h] at hshort

theorem unbracketed_clockText (hourDigits micros : Nat) :
    Unbracketed (Span.clockText hourDigits micros) := by
  have hclock : Unbracketed (Text.zeroPadded hourDigits (micros / 1000000 / 3600) ++ ":" ++
      Text.zeroPadded 2 (micros / 1000000 / 60 % 60) ++ ":" ++
        Text.zeroPadded 2 (micros / 1000000 % 60)) :=
    ((((unbracketed_zeroPadded _ _).append (by decide)).append (unbracketed_zeroPadded _ _)).append
      (by decide)).append (unbracketed_zeroPadded _ _)
  unfold Span.clockText
  dsimp only
  split
  · exact hclock
  · exact (hclock.append (by decide)).append (unbracketed_zeroPadded _ _)

theorem unbracketed_iso (d : Date) : Unbracketed d.iso :=
  ((((unbracketed_zeroPadded _ _).append (by decide)).append (unbracketed_zeroPadded _ _)).append
    (by decide)).append (unbracketed_zeroPadded _ _)

theorem unbracketed_zone (z : Zone) : Unbracketed z.text := by
  have hsign : Unbracketed (if z.micros < 0 then "-" else "+") := by
    split <;> decide
  unfold Zone.text
  dsimp only
  split
  · exact ((hsign.append (unbracketed_zeroPadded _ _)).append (by decide)).append
      (unbracketed_zeroPadded _ _)
  · exact hsign.append (unbracketed_clockText _ _)

theorem unbracketed_int (n : Int) : Unbracketed (toString n) :=
  unbracketed_of_isNumeral (Json.isNumeral_toString n)

namespace Value

variable {v : Value}

/-- Values that can be searched: texts and collections. -/
inductive Searched : Value → Prop
  | text (s : String) : Searched (.text s)
  | list (items : List Value) : Searched (.list items)
  | tuple (items : List Value) : Searched (.tuple items)
  | set (items : List Value) : Searched (.set items)
  | map (entries : Mapping) : Searched (.map entries)

/-- What cannot be searched is written without brackets, unless it is bytes. -/
theorem unbracketed_toText (h : ¬ v.Searched) (hbytes : ∀ data, v ≠ .bytes data) :
    Unbracketed v.toText := by
  have hinstant : ∀ t : Instant, Unbracketed t.text := fun t =>
    ((unbracketed_iso _).append (by decide)).append (unbracketed_clockText _ _)
  cases v with
  | null => decide
  | bool b => cases b <;> decide
  | int n => exact unbracketed_int n
  | float x => exact unbracketed_shortest x
  | date d => exact unbracketed_iso d
  | instant t => exact hinstant t
  | zoned t z => exact (hinstant t).append (unbracketed_zone z)
  | bytes data => exact absurd rfl (hbytes data)
  | span d =>
    have hday : Unbracketed (if d.days.natAbs = 1 then "day" else "days") := by
      split <;> decide
    rw [toText, Span.text]
    dsimp only
    split
    · exact unbracketed_clockText _ _
    · exact ((((unbracketed_int _).append (by decide)).append hday).append (by decide)).append
        (unbracketed_clockText _ _)
  | text s => exact absurd (.text s) h
  | list items => exact absurd (.list items) h
  | tuple items => exact absurd (.tuple items) h
  | set items => exact absurd (.set items) h
  | map entries => exact absurd (.map entries) h

theorem searched_of_mark (h : Text.contains dateMark v.toText = true)
    (hbytes : ∀ data, v ≠ .bytes data) : v.Searched := by
  by_contra hno
  exact unbracketed_toText hno hbytes (Text.mem_of_contains h (by decide))

end Value

/-! ## Making a run -/

theorem not_escapes_checkTemplate {v : Value} (h : v.Searched) :
    ¬ (checkTemplate v).Escapes := by
  obtain ⟨marked, hmark⟩ : ∃ marked, hasDateMark v = .ok marked := by
    cases h <;> exact ⟨_, rfl⟩
  unfold checkTemplate
  rw [hmark]
  cases v.isTrue <;> cases marked <;> simp [bind, Except.bind, Failure.configuration]

theorem checkTemplate_bytes {data : List UInt8} (h : data ≠ []) :
    checkTemplate (.bytes data) =
      .error (.wrongType s!"{(Value.bytes data).inner} cannot be searched") := by
  have htrue : (Value.bytes data).isTrue = true := by simpa [Value.isTrue] using h
  rw [checkTemplate, htrue]
  rfl

namespace Window

theorem not_escapes_make? {start stop : Instant} {record file : Span} :
    ¬ (make? start stop record file).Escapes := by
  unfold make?
  split
  · split
    · split
      · split <;> simp [Failure.configuration]
      · simp [Failure.configuration]
    · simp [Failure.configuration]
  · simp [Failure.configuration]

end Window

/-- Settings with a template that is searched for the mark of a date, or bytes, and with dates and
durations that can be read. -/
structure RunSettings.Readable (settings : RunSettings) : Prop where
  template : settings.template.Searched ∨ ∃ data, data ≠ [] ∧ settings.template = .bytes data
  start : ∃ t, parseDate "start date" settings.start = .ok t
  stop : ∃ t, parseDate "end date" settings.stop = .ok t
  record : ∃ d, parseDuration "record interval" settings.record = .ok d
  file : ∃ d, parseDuration "file interval" settings.file = .ok d

theorem ModelRun.make?_of_bytes {settings : RunSettings} {data : List UInt8}
    (h : settings.Readable) (hdata : settings.template = .bytes data) :
    make? settings =
      .error (.wrongType s!"{(Value.bytes data).inner} cannot be searched") := by
  rcases h.template with ht | ⟨data', hne, hdata'⟩
  · rw [hdata] at ht
    cases ht
  · obtain rfl : data = data' := by
      rw [hdata] at hdata'
      exact Value.bytes.inj hdata'
    rw [make?, hdata, checkTemplate_bytes hne]
    rfl

/-- Such settings are found wrong in no way but their own, unless the template is bytes. -/
theorem ModelRun.escapes_make? {settings : RunSettings} (h : settings.Readable) :
    (make? settings).Escapes ↔ ∃ data, settings.template = .bytes data := by
  obtain ⟨start, hstart⟩ := h.start
  obtain ⟨stop, hstop⟩ := h.stop
  obtain ⟨record, hrecord⟩ := h.record
  obtain ⟨file, hfile⟩ := h.file
  unfold make?
  rcases h.template with ht | ⟨data, hne, hdata⟩
  · have hno : ∀ data, settings.template ≠ .bytes data := fun data hdata => by
      rw [hdata] at ht
      cases ht
    rw [Attempt.escapes_bind, or_iff_right (not_escapes_checkTemplate ht)]
    simp only [hstart, hstop, hrecord, hfile, bind, Except.bind, hno, exists_false, iff_false,
      not_exists, not_and]
    intro _ _
    split
    · simp [Catalog.reservedFailure, Failure.configuration]
    · have hwindow : ¬ (Window.make? start stop record file).Escapes := Window.not_escapes_make?
      cases hmake : Window.make? start stop record file with
      | ok w => simp
      | error f => simpa [hmake] using hwindow
  · have hmake := ModelRun.make?_of_bytes h hdata
    unfold make? at hmake
    rw [hmake]
    exact iff_of_true (by simp [Failure.wrongType]) ⟨data, hdata⟩

theorem Config.mark_of_checkTemplate {v : Value} (hv : v ≠ .null)
    (h : Config.checkTemplate v = .ok ()) : Text.contains dateMark v.toText = true := by
  unfold Config.checkTemplate at h
  split at h
  · exact absurd rfl hv
  · split at h
    · assumption
    · cases h

namespace Configuration
open Config

variable {c : Configuration} {path : String} {v : Value} {run : ModelRun}

theorem not_escapes_require : ¬ (c.require path).Escapes := by
  unfold require
  split <;> simp [Failure.configuration]

theorem get?_of_require (h : c.require path = .ok v) : c.get? path = some v ∧ v ≠ .null := by
  unfold require at h
  cases hget : c.get? path with
  | none => simp [hget] at h
  | some u =>
    rw [hget] at h
    cases u <;> cases h <;> exact ⟨rfl, nofun⟩

theorem not_escapes_runSettings : ¬ c.runSettings.Escapes := by
  obtain ⟨-, gs, hgroups, -⟩ := c.exists_entries
  simp [runSettings, Attempt.escapes_bind, not_escapes_require, hgroups]

/-- A configuration has checked the template, the dates and the intervals that it hands on to a
run. -/
theorem readable_runSettings {settings : RunSettings} (h : c.runSettings = .ok settings) :
    settings.Readable := by
  obtain ⟨hinput, -, -⟩ := check_eq_ok.1 c.checked
  obtain ⟨input, hi, htemplate, hintervals, hdates⟩ := checkInput_eq_ok.1 hinput
  obtain ⟨record, file, hrecord, hfile, -, -⟩ := checkIntervals_eq_ok.1 hintervals
  have hfield : ∀ field, fieldOf c.input field = Mapping.field? input field := fun field => by
    rw [fieldOf, Configuration.input, hi]
    rfl
  have hrequired : ∀ path field {v}, Text.splitAt '.' path = ["input", field] →
      c.require path = .ok v → setting input field = v ∧ v ≠ .null := fun path field _ hp hv => by
    obtain ⟨hget, hne⟩ := get?_of_require hv
    rw [setting, ← get?_of_input _ _ hi hp, hget]
    exact ⟨rfl, hne⟩
  unfold runSettings at h
  rw [hfield, hfield, field?_of_parseDuration hrecord, field?_of_parseDuration hfile] at h
  obtain ⟨template, ht, h⟩ := Attempt.bind_eq_ok.1 h
  obtain ⟨start, hs, h⟩ := Attempt.bind_eq_ok.1 h
  obtain ⟨stop, he, h⟩ := Attempt.bind_eq_ok.1 h
  obtain ⟨groups, -, h⟩ := Attempt.bind_eq_ok.1 h
  cases h
  obtain ⟨rfl, hne⟩ := hrequired "input.path_template" "path_template" rfl ht
  obtain ⟨rfl, hstart⟩ := hrequired "input.start_date" "start_date" rfl hs
  obtain ⟨rfl, hstop⟩ := hrequired "input.end_date" "end_date" rfl he
  obtain ⟨a, b, ha, hb, -⟩ := (checkDates_eq_ok hstart hstop).1 hdates
  refine ⟨?_, ⟨a, ha⟩, ⟨b, hb⟩, ⟨record, parseDuration_label _ hrecord⟩, file,
    parseDuration_label _ hfile⟩
  have hmark := mark_of_checkTemplate hne htemplate
  by_cases hbytes : ∃ data, setting input "path_template" = .bytes data
  · obtain ⟨data, hdata⟩ := hbytes
    refine .inr ⟨data, fun hnil => ?_, hdata⟩
    rw [hdata, hnil] at hmark
    exact absurd hmark (by decide)
  · exact .inl (Value.searched_of_mark hmark fun data hdata => hbytes ⟨data, hdata⟩)

theorem run_of_bytes {settings : RunSettings} {data : List UInt8}
    (hs : c.runSettings = .ok settings) (hdata : settings.template = .bytes data) :
    c.run = .error (.wrongType s!"{(Value.bytes data).inner} cannot be searched") := by
  rw [run, hs]
  exact ModelRun.make?_of_bytes (readable_runSettings hs) hdata

/-- An accepted configuration that no run can be made from is itself what is wrong, unless its
template is bytes. -/
theorem escapes_run (c : Configuration) : c.run.Escapes ↔
    ∃ settings data, c.runSettings = .ok settings ∧ settings.template = .bytes data := by
  rw [run, Attempt.escapes_bind, or_iff_right not_escapes_runSettings]
  constructor
  · rintro ⟨settings, hs, h⟩
    obtain ⟨data, hdata⟩ := (ModelRun.escapes_make? (readable_runSettings hs)).1 h
    exact ⟨settings, data, hs, hdata⟩
  · rintro ⟨settings, data, hs, hdata⟩
    exact ⟨settings, hs, (ModelRun.escapes_make? (readable_runSettings hs)).2 ⟨data, hdata⟩⟩

end Configuration

end GridStream
