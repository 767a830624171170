import GridStream.Proofs.ModelRun.Course
import GridStream.Proofs.Producer.Consulting
import GridStream.Proofs.Window.Midnight

/-!
# Single records

A record can be read by itself, from a file that is opened for it and closed again, or as one of
the records of a window, by a producer that keeps its file open from record to record. Both come to
the same (`ModelRun.readAt_agrees`): the file and the index are those of the address of the time,
which is the same in all windows in step with midnight, and a producer that was not halted before
answers with what the source has there.
-/

namespace GridStream

namespace Source

variable {files : List CataloguedFile}

/-- Whether every file that can be opened has a name. -/
def NamesFiles (s : Source) : Prop :=
  ∀ start file, s.openAt start = .ok file → ∃ path, s.describe start = .ok path

/-- A file that is found by its path has a name. -/
theorem namesFiles_stored {template pattern : Value} {files : FolderTree} :
    (stored template pattern files).NamesFiles := fun start file h => by
  obtain ⟨path, hpath, -⟩ := Attempt.bind_eq_ok.1 h
  exact ⟨path, hpath⟩

theorem namesFiles_catalogued {template pattern : String} :
    (catalogued (.text template) (.text pattern) files).NamesFiles := fun start _ _ =>
  ⟨expandTemplate template pattern start, rfl⟩

/-- Only the address of the time matters. -/
theorem recordAt_congr {s : Source} {name : String} {window window' : Window} {t : Instant}
    (hstart : window'.fileStart? t = window.fileStart? t)
    (hindex : window'.recordIndex t = window.recordIndex t) :
    s.recordAt name window' t = s.recordAt name window t := by
  rw [recordAt, recordAt, hstart, hindex]

end Source

namespace ModelRun
open Producer

variable {run : ModelRun} {s : Source} {v u : World} {name : String} {n : Nat} {t start : Instant}
  {g : Grid}

/-- The world after a number of pulls of a new producer of a stored variable. -/
def pulled (run : ModelRun) (s : Source) (v : World) (name : String) (n : Nat) : World :=
  ((run.read v name).1.pulls s n (run.read v name).2).2

/-- The pull behind them. -/
def pullAt (run : ModelRun) (s : Source) (v : World) (name : String) (n : Nat) :
    Pull Grid × World :=
  (run.read v name).1.pull s (run.pulled s v name n)

section
variable (hc : (run.window.stop.shift? run.window.record.micros).isSome)
  (ht : (Cursor.atStart run.window).recordTime? n = some t)
  (hn : (run.read v name).1.halted (run.pulled s v name n) = false)
include hc ht hn

/-- A producer that is not halted has a record of its window ahead. -/
theorem steady_pulled :
    Steady s (run.read v name).1.nodes (run.pulled s v name n) ∧
      (run.read v name).1.time (run.pulled s v name n) 0 = some t := by
  have h := run.read_created v name
  have hlt := Cursor.lt_remaining.2 (Option.isSome_of_eq_some ht)
  obtain ⟨hst, hshift⟩ := steady_pulls_of_unhalted
    (steady_of_created h (Cursor.inCalendar_of_stop hc))
    (fun j hj l hl => by
      rw [h.leaf l hl]
      exact Cursor.lt_remaining.1 (Int.lt_trans (Int.ofNat_lt.2 hj) hlt)) hn
  refine ⟨hst, ?_⟩
  rw [time, pulled, hshift _ (firstLeaf_mem_leaves _), Nat.zero_add]
  exact (time_eq h).trans ht

/-- What it gives is what the source has at the time. -/
theorem pullAt_fst : (run.pullAt s v name n).1 = match s.recordAt name run.window t with
    | .ok g => .item g
    | .error f => .failed f := by
  obtain ⟨hst, htime⟩ := steady_pulled hc ht hn
  rw [pullAt, pull_of_eval hst]
  change answer (eval s _ 0 (.raw v.slots.size name run.window)) = _
  rw [eval_raw]
  change (Leaf.cursor ⟨v.slots.size, name, run.window⟩ _).recordTime? 0 = some t at htime
  rw [htime]
  dsimp only
  cases s.recordAt name run.window t <;> rfl

theorem pullAt_eq_item :
    (run.pullAt s v name n).1 = .item g ↔ s.recordAt name run.window t = .ok g := by
  rw [pullAt_fst hc ht hn]
  cases s.recordAt name run.window t <;> simp

theorem pullAt_eq_failed : (∃ f, (run.pullAt s v name n).1 = .failed f) ↔
    ∃ f, s.recordAt name run.window t = .error f := by
  rw [pullAt_fst hc ht hn]
  cases s.recordAt name run.window t <;> simp

end

/-- A record can be read by itself where the source has it. -/
theorem readAt_eq_ok {window : Window} (hs : s.NamesFiles) (hw : window.InStep)
    (ha : window.fileStart? t = some start) :
    (u.readAt s name t window.record window.file).1 = .ok g ↔
      s.recordAt name window t = .ok g := by
  obtain ⟨ha', hindex⟩ := hw.address_eq hw.single rfl rfl ha
  rw [recordAt_eq_ok]
  cases ho : s.openAt start with
  | error f =>
    rw [(World.readAt_of_error Window.make?_single ha' ho).1]
    refine iff_of_false nofun ?_
    rintro ⟨start', file, hstart, hf, -⟩
    cases ha.symm.trans hstart
    cases ho.symm.trans (fileFor_eq_ok.1 hf).2
  | ok file =>
    rw [(World.readAt_of_ok Window.make?_single ha' ho).1, hindex]
    constructor
    · exact fun hg => ⟨start, file, ha, fileFor_eq_ok.2 ⟨hs start file ho, ho⟩, hg⟩
    · rintro ⟨start', file', hstart, hf, hg⟩
      cases ha.symm.trans hstart
      cases ho.symm.trans (fileFor_eq_ok.1 hf).2
      exact hg

/-- The reading of a single record agrees with a producer of a run in step with midnight that was
not halted before the record. Where the file can be opened, both ask for the same record of the same
file; where it cannot, both ask for the file and for no record. They give the same grid, or both
fail. A grid of the producer has the time of the record. All of this is the same for every run with
the same intervals whose window starts at a midnight and spans the time. -/
theorem readAt_agrees (v u : World) (hs : s.NamesFiles) (hw : run.window.InStep)
    (hc : (run.window.stop.shift? run.window.record.micros).isSome)
    (ht : (Cursor.atStart run.window).recordTime? n = some t)
    (hn : (run.read v name).1.halted (run.pulled s v name n) = false) :
    let single := u.readAt s name t run.window.record run.window.file
    ∃ start, run.window.fileStart? t = some start ∧
      (∀ file, s.openAt start = .ok file →
        (run.pulled s v name n).Consults (run.pullAt s v name n).2 name start
          (run.window.recordIndex t) ∧
        u.Consults single.2 name start (run.window.recordIndex t)) ∧
      (∀ path f, s.describe start = .ok path → s.openAt start = .error f →
        (run.pulled s v name n).Misses (run.pullAt s v name n).2 start ∧
        u.Misses single.2 start) ∧
      (∀ g, (run.pullAt s v name n).1 = .item g ↔ single.1 = .ok g) ∧
      ((∃ f, (run.pullAt s v name n).1 = .failed f) ↔ ∃ f, single.1 = .error f) ∧
      (∀ g, (run.pullAt s v name n).1 = .item g →
        (run.read v name).1.timestamp (run.pullAt s v name n).2 = some t) ∧
      ∀ (run' : ModelRun) (v' : World), run'.window.InStep →
        run'.window.record = run.window.record → run'.window.file = run.window.file →
        run'.window.start ≤ t → t < run'.window.stop →
        (run'.window.stop.shift? run'.window.record.micros).isSome →
        run'.window.fileStart? t = some start ∧
        run'.window.recordIndex t = run.window.recordIndex t ∧
        ∃ m, (Cursor.atStart run'.window).recordTime? m = some t ∧
          ((run'.read v' name).1.halted (run'.pulled s v' name m) = false →
            (run'.pullAt s v' name m).1 = (run.pullAt s v name n).1) := by
  obtain ⟨hst, htime⟩ := steady_pulled hc ht hn
  obtain ⟨start, ha⟩ := Window.exists_fileStart ht
  obtain ⟨ha', hindex⟩ := hw.address_eq hw.single rfl rfl ha
  have hsame : ∀ g, s.recordAt name run.window t = .ok g ↔
      (u.readAt s name t run.window.record run.window.file).1 = .ok g := fun g =>
    (readAt_eq_ok hs hw ha).symm
  have hnew : ((run.read v name).2.slot v.slots.size).handle = none :=
    (run.read_created v name).fresh.handle _ (key_mem_keys _)
  have hlast : (run.pulled s v name n).HoldsLast v.slots.size :=
    holdsLast_pulls (World.holdsLast_of_none hnew)
  refine ⟨start, ha, fun file ho => ⟨?_, ?_⟩, fun path f hd ho => ⟨?_, ?_⟩, fun g => ?_, ?_,
    fun g hg => ?_, fun run' v' hw' hr hf hfrom hto hc' => ?_⟩
  · exact consults_pull hst hlast htime ha (fileFor_eq_ok.2 ⟨hs start file ho, ho⟩)
  · exact hindex ▸ (World.readAt_of_ok Window.make?_single ha' ho).2
  · exact misses_pull hst htime ha hd ho
  · exact (World.readAt_of_error Window.make?_single ha' ho).2
  · rw [pullAt_eq_item hc ht hn, hsame]
  · rw [pullAt_eq_failed hc ht hn, Attempt.exists_error_congr hsame]
  · exact (timestamp_of_item hst.nodup (placed_of_steady hst) (Prod.fst_eq_iff.1 hg)).trans htime
  · obtain ⟨hstart, hindex'⟩ := hw.address_eq hw' hr hf ha
    obtain ⟨m, hm⟩ := hw.exists_recordTime hw' hr ht hfrom hto
    refine ⟨hstart, hindex', m, hm, fun hn' => ?_⟩
    rw [pullAt_fst hc' hm hn', pullAt_fst hc ht hn,
      Source.recordAt_congr (hstart.trans ha.symm) hindex']

/-- Three days with a record every two hours and four files a day. -/
def threeDays : ModelRun where
  template := .text dateMark
  window := {
    __ := Window.sixHourFiles
    stop := ⟨345600000000, by decide⟩
    start_le_stop := by decide }
  groups := []

/-- The second record of the second day has index 1 in the file that starts at the midnight before.
-/
theorem readAt_agrees_three_days :
    (sampleSource fun _ _ => true).NamesFiles ∧ threeDays.window.InStep ∧
    (threeDays.window.stop.shift? threeDays.window.record.micros).isSome ∧
    ∃ t start : Instant, t.micros = 180000000000 ∧ start.micros = 172800000000 ∧
      (Cursor.atStart threeDays.window).recordTime? 13 = some t ∧
      (threeDays.read {} "A").1.halted
        (threeDays.pulled (sampleSource fun _ _ => true) {} "A" 13) = false ∧
      (threeDays.pulled (sampleSource fun _ _ => true) {} "A" 13).Consults
        (threeDays.pullAt (sampleSource fun _ _ => true) {} "A" 13).2 "A" start 1 ∧
      (({} : World).readAt (sampleSource fun _ _ => true) "A" t threeDays.window.record
        threeDays.window.file).1 = .ok default := by
  have hs : (sampleSource fun _ _ => true).NamesFiles := fun _ _ _ => ⟨_, rfl⟩
  have hw : threeDays.window.InStep := ⟨by decide, by decide⟩
  have hc : (threeDays.window.stop.shift? threeDays.window.record.micros).isSome := by decide
  let t : Instant := ⟨180000000000, by decide⟩
  let midnight : Instant := ⟨172800000000, by decide⟩
  have ht : (Cursor.atStart threeDays.window).recordTime? 13 = some t := by decide
  have hn : (threeDays.read {} "A").1.halted
    (threeDays.pulled (sampleSource fun _ _ => true) {} "A" 13) = false := by decide +kernel
  have hstart : threeDays.window.fileStart? t = some midnight := by decide
  have hindex : threeDays.window.recordIndex t = 1 := by decide
  have hitem : (threeDays.pullAt (sampleSource fun _ _ => true) {} "A" 13).1 = .item default :=
    (pullAt_eq_item hc ht hn).2 (recordAt_eq_ok.2 ⟨midnight, _, hstart, rfl, rfl⟩)
  obtain ⟨start, ha, hconsults, -, hgrid, -⟩ := readAt_agrees {} {} hs hw hc ht hn
  obtain rfl : start = midnight := Option.some.inj (ha.symm.trans hstart)
  rw [hindex] at hconsults
  exact ⟨hs, hw, hc, t, midnight, rfl, rfl, ht, hn, (hconsults _ rfl).1, (hgrid _).1 hitem⟩

end ModelRun

end GridStream
