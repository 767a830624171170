import GridStream.ModelRun
import GridStream.Proofs.Attempt
import GridStream.Proofs.Calendar.DatedPath
import GridStream.Proofs.Window.Files
import Mathlib.Tactic.ByContra

/-!
# Where records are stored

A record of a run is stored under the path of the file that covers its time, at its index in that
file. The path carries the day on which the file starts. So two records share a place just if their
indices agree and their files start on the same day: where each file has a day of its own, no record
is stored in the place of another (`ModelRun.placesDistinct_iff`).
-/

namespace GridStream

namespace ModelRun

/-- The place of a record: the path of its file under the usual date pattern, and its index there.
-/
def place? (run : ModelRun) (n : Nat) : Option (String × Int) :=
  match (Cursor.atStart run.window).recordTime? n with
  | none => none
  | some t =>
    match run.window.fileStart? t with
    | none => none
    | some start =>
      match expandedPath run.template (.text Pattern.dashedDate) start with
      | .error _ => none
      | .ok path => some (path, run.window.recordIndex t)

/-- Whether no two records of a run have the same place. -/
def PlacesDistinct (run : ModelRun) : Prop :=
  ∀ n m : Nat, (n : Int) < run.recordCount → (m : Int) < run.recordCount → n ≠ m →
    run.place? n ≠ run.place? m

/-- A run has the template that it was made with, which was checked. -/
theorem make?_eq_ok {settings : RunSettings} {run : ModelRun} (h : make? settings = .ok run) :
    checkTemplate settings.template = .ok () ∧ run.template = settings.template := by
  unfold make? at h
  obtain ⟨_, hc, h⟩ := Attempt.bind_eq_ok.1 h
  obtain ⟨_, -, h⟩ := Attempt.bind_eq_ok.1 h
  obtain ⟨_, -, h⟩ := Attempt.bind_eq_ok.1 h
  obtain ⟨_, -, h⟩ := Attempt.bind_eq_ok.1 h
  obtain ⟨_, -, h⟩ := Attempt.bind_eq_ok.1 h
  dsimp only at h
  split at h
  · cases h
  · obtain ⟨_, -, h⟩ := Attempt.bind_eq_ok.1 h
    cases h
    exact ⟨hc, rfl⟩

theorem contains_of_make? {settings : RunSettings} {run : ModelRun} {template : String}
    (h : make? settings = .ok run) (ht : settings.template = .text template) :
    Text.contains dateMark template := by
  have hc := (make?_eq_ok h).1
  rw [ht] at hc
  cases hm : Text.contains dateMark template with
  | true => rfl
  | false =>
    -- Neither an empty template nor one without the mark passes the check.
    unfold checkTemplate at hc
    cases he : (Value.text template).isTrue <;>
      simp [he, hasDateMark, hm, bind, Except.bind] at hc

/-! ## Places -/

variable {run : ModelRun} {template : String} {n m : Nat} {t a b : Instant}

theorem place?_eq (ht : run.template = .text template)
    (h : (Cursor.atStart run.window).recordTime? n = some t)
    (ha : run.window.fileStart? t = some a) :
    run.place? n =
      some (expandTemplate template Pattern.dashedDate a, run.window.recordIndex t) := by
  simp only [place?, h, ha, ht, expandedPath]

/-- Every record of a run has a place. -/
theorem isSome_place? (ht : run.template = .text template) :
    (run.place? n).isSome ↔ (n : Int) < run.recordCount := by
  unfold recordCount
  rw [Cursor.lt_remaining]
  cases h : (Cursor.atStart run.window).recordTime? n with
  | none => simp [place?, h]
  | some t =>
    obtain ⟨a, ha⟩ := Window.exists_fileStart h
    simp [place?_eq ht h ha]

/-- Places differ just if the files have paths of their own. -/
theorem placesDistinct_iff_path (ht : run.template = .text template) :
    run.PlacesDistinct ↔ ∀ a b, run.window.StartsFile a → run.window.StartsFile b → a ≠ b →
      expandTemplate template Pattern.dashedDate a ≠
        expandTemplate template Pattern.dashedDate b := by
  obtain ⟨q, hq⟩ := run.window.exists_recordsPerFile
  constructor
  · intro h a b ha hb hab hpath
    -- The first records of the two files would share a place.
    obtain ⟨has, i, hai⟩ := Window.startsFile_iff.1 ha
    obtain ⟨hbs, j, hbj⟩ := Window.startsFile_iff.1 hb
    obtain ⟨hrec, hfile, hindex⟩ := Window.recordTime?_of_startsFile hq has hai
    obtain ⟨hrec', hfile', hindex'⟩ := Window.recordTime?_of_startsFile hq hbs hbj
    refine h (i * q) (j * q) (Cursor.lt_remaining.2 (by rw [hrec]; rfl))
      (Cursor.lt_remaining.2 (by rw [hrec']; rfl)) (fun e => hab ?_) ?_
    · rw [e, hrec'] at hrec
      exact (Option.some.inj hrec).symm
    · rw [place?_eq ht hrec hfile, place?_eq ht hrec' hfile', hpath, hindex, hindex']
  · intro h n m hn hm hnm hplace
    obtain ⟨t, hn⟩ := Option.isSome_iff_exists.1 (Cursor.lt_remaining.1 hn)
    obtain ⟨u, hm⟩ := Option.isSome_iff_exists.1 (Cursor.lt_remaining.1 hm)
    obtain ⟨a, ha⟩ := Window.exists_fileStart hn
    obtain ⟨b, hb⟩ := Window.exists_fileStart hm
    rw [place?_eq ht hn ha, place?_eq ht hm hb, Option.some.injEq, Prod.mk.injEq] at hplace
    obtain ⟨hpath, hindex⟩ := hplace
    have hab : a = b := by
      by_contra hab
      exact h a b ⟨n, t, hn, ha⟩ ⟨m, u, hm, hb⟩ hab hpath
    -- The same file and the same index in it: the same record.
    rw [Window.recordIndex_recordTime hn, Window.recordIndex_recordTime hm, hq] at hindex
    have hfile : (n : Int) / q * run.window.file.micros = m / q * run.window.file.micros := by
      have ha := (Window.fileStart?_recordTime hn).1 ha
      have hb := (Window.fileStart?_recordTime hm).1 hb
      rw [hq] at ha hb
      rw [hab] at ha
      omega
    have hdiv := Int.eq_of_mul_eq_mul_right (Int.ne_of_gt run.window.file_pos) hfile
    refine hnm (Int.ofNat_inj.1 ?_)
    rw [← Int.mul_ediv_add_emod n q, hdiv, hindex, Int.mul_ediv_add_emod]

/-- Places differ just if each file starts on a day of its own. -/
theorem placesDistinct_iff_date (ht : run.template = .text template)
    (hc : Text.contains dateMark template) :
    run.PlacesDistinct ↔ ∀ a b, run.window.StartsFile a → run.window.StartsFile b → a ≠ b →
      a.date ≠ b.date := by
  simp only [placesDistinct_iff_path ht, ne_eq, expandTemplate_dashedDate_inj hc]

private theorem file_mul_le {file : Int} {i j : Nat} (hf : 0 < file) (h : i < j) :
    i * file + file ≤ j * file := by
  have hle : ((i : Int) + 1) * file ≤ j * file :=
    Int.mul_le_mul_of_nonneg_right (by omega) (Int.le_of_lt hf)
  rwa [Int.add_mul, Int.one_mul] at hle

/-- Files that span a day or more start on different days. -/
theorem date_ne_of_startsFile (hf : (microsPerDay : Int) ≤ run.window.file.micros)
    (ha : run.window.StartsFile a) (hb : run.window.StartsFile b) (hab : a ≠ b) :
    a.date ≠ b.date := by
  obtain ⟨-, i, hai⟩ := Window.startsFile_iff.1 ha
  obtain ⟨-, j, hbj⟩ := Window.startsFile_iff.1 hb
  rw [ne_eq, Instant.date_eq_iff]
  unfold microsPerDay at *
  rcases Nat.lt_trichotomy i j with h | rfl | h
  · have := file_mul_le run.window.file_pos h
    omega
  · exact absurd (Instant.ext (Int.ofNat_inj.1 (hai.trans hbj.symm))) hab
  · have := file_mul_le run.window.file_pos h
    omega

/-- Where files begin to be counted at midnight and span less than a day, the first two of them
start on one day. -/
theorem placesDistinct_iff_single (ht : run.template = .text template)
    (hc : Text.contains dateMark template) (hm : run.window.start.timeOfDay = 0)
    (hf : run.window.file.micros < (microsPerDay : Int)) :
    run.PlacesDistinct ↔
      (run.window.stop.micros : Int) ≤ run.window.start.micros + run.window.file.micros := by
  have hfile := run.window.file_pos
  rw [placesDistinct_iff_date ht hc]
  constructor
  · intro h
    by_contra hlt
    have hstop := run.window.stop.inRange
    let b : Instant :=
      ⟨(run.window.start.micros + run.window.file.micros).toNat, by omega⟩
    have hb : (b.micros : Int) = run.window.start.micros + run.window.file.micros :=
      Int.toNat_of_nonneg (by omega)
    have hstart : run.window.StartsFile run.window.start :=
      Window.startsFile_iff.2 ⟨Instant.lt_iff.2 (by omega), 0, by simp⟩
    have hnext : run.window.StartsFile b :=
      Window.startsFile_iff.2 ⟨Instant.lt_iff.2 (by omega), 1, by simpa using hb⟩
    refine h _ b hstart hnext (fun e => ?_) (Instant.date_eq_iff.2 ?_)
    · rw [← e] at hb
      omega
    · unfold Instant.timeOfDay at hm
      unfold microsPerDay at *
      omega
  · intro h a b ha hb hab
    have hfirst : ∀ {a}, run.window.StartsFile a → a = run.window.start := fun ha => by
      obtain ⟨hs, i, hai⟩ := Window.startsFile_iff.1 ha
      rw [Instant.lt_iff] at hs
      cases i with
      | zero => exact Instant.ext (by simpa using hai)
      | succ i =>
        have := file_mul_le (i := 0) (j := i + 1) run.window.file_pos (Nat.succ_pos i)
        omega
    exact absurd ((hfirst ha).trans (hfirst hb).symm) hab

/-! ## When no record is stored twice -/

/-- For every run that can be made, with a template that is a text: no two records of its window
have the same place just if files that start at different times have different paths, and just if
these files start on different days. That is so whenever files span 24 hours or more. Where the
window starts at midnight and files span less, it is so just if a single file covers the window. -/
theorem placesDistinct_iff {settings : RunSettings} (hr : make? settings = .ok run)
    (ht : settings.template = .text template) :
    (run.PlacesDistinct ↔ ∀ a b, run.window.StartsFile a → run.window.StartsFile b → a ≠ b →
      expandTemplate template Pattern.dashedDate a ≠
        expandTemplate template Pattern.dashedDate b) ∧
    (run.PlacesDistinct ↔ ∀ a b, run.window.StartsFile a → run.window.StartsFile b → a ≠ b →
      a.date ≠ b.date) ∧
    ((microsPerDay : Int) ≤ run.window.file.micros → run.PlacesDistinct) ∧
    (run.window.start.timeOfDay = 0 → run.window.file.micros < (microsPerDay : Int) →
      (run.PlacesDistinct ↔
        (run.window.stop.micros : Int) ≤ run.window.start.micros + run.window.file.micros)) ∧
    ∀ n : Nat, (run.place? n).isSome ↔ (n : Int) < run.recordCount := by
  have hc := contains_of_make? hr ht
  have ht := (make?_eq_ok hr).2.trans ht
  refine ⟨placesDistinct_iff_path ht, placesDistinct_iff_date ht hc, fun hf => ?_,
    placesDistinct_iff_single ht hc, fun n => isSome_place? ht⟩
  exact (placesDistinct_iff_date ht hc).2 fun a b => date_ne_of_startsFile hf

/-! ## A day in one file or in two -/

/-- The settings for 1 January 2005 with a record every six hours. -/
def sampleSettings (file : Span) : RunSettings where
  template := .text "d_[DATE].nc"
  start := .text "20050101"
  stop := .text "20050102"
  record := .span (.hours 6)
  file := .span file

/-- The run for 1 January 2005 with a record every six hours. -/
def sampleRun (file : Span) (h : 6 * 3600000000 ≤ file.micros)
    (hw : file.micros % (6 * 3600000000) = 0) : ModelRun where
  template := .text "d_[DATE].nc"
  window := {
    start := ⟨63240134400000000, by decide⟩
    stop := ⟨63240220800000000, by decide⟩
    record := .hours 6
    file
    start_le_stop := by decide
    record_pos := by decide
    record_le_file := h
    whole := hw }
  groups := Catalog.defaultGroups

theorem make?_sampleSettings {file : Span} (h : 6 * 3600000000 ≤ file.micros)
    (hw : file.micros % (6 * 3600000000) = 0) :
    make? (sampleSettings file) = .ok (sampleRun file h hw) := by
  have hstart : parseDate "start date" (.text "20050101") =
    .ok ⟨63240134400000000, by decide⟩ := by rfl
  have hstop : parseDate "end date" (.text "20050102") =
    .ok ⟨63240220800000000, by decide⟩ := by rfl
  have hrecord : parseDuration "record interval" (.span (.hours 6)) = .ok (.hours 6) := by rfl
  have hfile : parseDuration "file interval" (.span file) = .ok file := by
    have hpos : ¬ file.micros ≤ 0 := by omega
    simp [parseDuration, hpos, bind, Except.bind]
  have hreserved : Catalog.reserved (sampleSettings file).groups.names = [] := by
    simp [sampleSettings, Catalog.reserved, SpeciesGroups.names]
  have hwindow := (sampleRun file h hw).window.make?_self
  refine Attempt.bind_eq_ok.2 ⟨(), rfl, Attempt.bind_eq_ok.2 ⟨_, hstart, Attempt.bind_eq_ok.2
    ⟨_, hstop, Attempt.bind_eq_ok.2 ⟨_, hrecord, Attempt.bind_eq_ok.2 ⟨_, hfile, ?_⟩⟩⟩⟩⟩
  dsimp only
  rw [hreserved, if_neg (by simp)]
  exact Attempt.bind_eq_ok.2 ⟨_, hwindow, rfl⟩

/-- In two files of twelve hours, the records of the second half of the day are those of the first.
-/
theorem places_shared_twelve_hours :
    make? (sampleSettings (.hours 12)) = .ok (sampleRun (.hours 12) (by decide) (by decide)) ∧
      ¬ (sampleRun (.hours 12) (by decide) (by decide)).PlacesDistinct := by
  refine ⟨make?_sampleSettings _ _, fun h => ?_⟩
  exact h 0 2 (by decide) (by decide) (by decide) rfl

/-- In a single file, they are all different. -/
theorem placesDistinct_whole_day :
    make? (sampleSettings (.hours 24)) = .ok (sampleRun (.hours 24) (by decide) (by decide)) ∧
      (sampleSettings (.hours 24)).template = .text "d_[DATE].nc" ∧
      (sampleRun (.hours 24) (by decide) (by decide)).PlacesDistinct :=
  have h : make? (sampleSettings (.hours 24)) = _ := make?_sampleSettings (by decide) (by decide)
  ⟨h, rfl, (placesDistinct_iff h rfl).2.2.1 (by decide)⟩

end ModelRun

end GridStream
