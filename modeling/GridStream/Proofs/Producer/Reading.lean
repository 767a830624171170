import GridStream.Proofs.Producer.Evaluation
import GridStream.Proofs.Producer.Move

/-!
# Reading the next record

A raw producer that has not failed reads what the evaluation of a leaf says, whether the file that
it needs is the one it holds or has to be opened (`Producer.readNext_of_ok` and its companions). The
slot of such a producer is `Slot.Ready`: the file in it is one that the source gives for the time
that is noted.
-/

namespace GridStream

/-- The slot of a producer that has not failed and that holds a file of the source, if any. -/
structure Slot.Ready (s : Source) (slot : Slot) : Prop where
  failure : slot.failure = none
  fileTime : slot.fileTime = slot.handle.map (·.start)
  file : ∀ h, slot.handle = some h →
    s.openAt h.start = .ok h.file ∧ ∃ path, s.describe h.start = .ok path

namespace Producer

variable {s : Source} {w : World} {key : Nat} {name : String} {window : Window}
  {start time : Instant} {f : Failure} {file : DataFile} {g : Grid}

theorem fileFor_eq_ok : s.fileFor name start = .ok file ↔
    (∃ path, s.describe start = .ok path) ∧ s.openAt start = .ok file := by
  unfold Source.fileFor Attempt.within
  cases s.describe start with
  | error f => simp
  | ok path => cases s.openAt start <;> simp

theorem recordAt_eq_ok : s.recordAt name window time = .ok g ↔
    ∃ start file, window.fileStart? time = some start ∧ s.fileFor name start = .ok file ∧
      file.read name (window.recordIndex time) = .ok g := by
  unfold Source.recordAt
  cases window.fileStart? time with
  | none => simp
  | some start =>
    cases hf : s.fileFor name start with
    | error f => simp [hf]
    | ok file =>
      cases hr : file.read name (window.recordIndex time) <;> simp [hf, hr, Attempt.within]

/-- Closing its file leaves a producer ready that is so. -/
theorem slot_release_self (hs : w.HasSlot key) (hr : (w.slot key).Ready s) :
    (w.release key).slot key = { w.slot key with handle := none, fileTime := none } := by
  cases h : (w.slot key).handle with
  | none =>
    have ht : (w.slot key).fileTime = none := by rw [hr.fileTime, h, Option.map_none]
    rw [World.release_of_handle_none h, ← h, ← ht]
  | some h' => simp [World.release, h, World.closeFile, World.slot_modify_self hs]

theorem stepInto_of_error (h : s.fileFor name start = .error f) :
    (stepInto s w key name start).1 = .error f := by
  unfold Source.fileFor Attempt.within at h
  unfold stepInto World.openFile
  cases hd : s.describe start with
  | error f' => simpa [hd] using h
  | ok path =>
    cases ho : s.openAt start with
    | error f' => simpa [hd, ho] using h
    | ok file => simp [hd, ho] at h

theorem stepInto_of_ok (hs : w.HasSlot key) (hr : (w.slot key).Ready s)
    (h : s.fileFor name start = .ok file) : ∃ w₁ id, stepInto s w key name start = (.ok (), w₁) ∧
      w₁.slot key =
        { w.slot key with handle := some ⟨id, start, file⟩, fileTime := some start } := by
  obtain ⟨⟨path, hd⟩, ho⟩ := fileFor_eq_ok.1 h
  let w₂ := ((w.release key).announce s!"Reading {name} from {path}").record (.requested start)
  have hs₂ : w₂.HasSlot key := (World.hasSlot_congr World.size_release).2 hs
  have he : stepInto s w key name start = (.ok (), w₂.take key start file) := by
    simp only [stepInto, hd, World.openFile, ho]
    rfl
  refine ⟨w₂.take key start file, w₂.opened, he, ?_⟩
  rw [World.slot_take_self hs₂, World.slot_record, World.slot_announce, slot_release_self hs hr]

/-- A file that is held is the one that the source gives for the time. -/
theorem enter_of_ok (hs : w.HasSlot key) (hr : (w.slot key).Ready s)
    (h : s.fileFor name start = .ok file) : ∃ w₁ id, enter s w key name start = (.ok (), w₁) ∧
      w₁.slot key =
        { w.slot key with handle := some ⟨id, start, file⟩, fileTime := some start } := by
  unfold enter
  split
  · next ht =>
    cases hh : (w.slot key).handle with
    | none => simp [hr.fileTime, hh] at ht
    | some held =>
      obtain ⟨ho, -⟩ := hr.file held hh
      have hstart : held.start = start := by simpa [hr.fileTime, hh] using ht
      rw [hstart, (fileFor_eq_ok.1 h).2] at ho
      cases ho
      refine ⟨w, held.id, rfl, ?_⟩
      rw [← hstart] at ht ⊢
      rw [← ht, ← hh]
  · exact stepInto_of_ok hs hr h

/-- A file that cannot be opened is none that is held, so it is asked for. -/
theorem enter_eq_stepInto (hr : (w.slot key).Ready s) (h : s.fileFor name start = .error f) :
    enter s w key name start = stepInto s w key name start := by
  unfold enter
  refine if_neg fun ht => ?_
  cases hh : (w.slot key).handle with
  | none => simp [hr.fileTime, hh] at ht
  | some held =>
    have hstart : held.start = start := by simpa [hr.fileTime, hh] using ht
    have hok : s.fileFor name held.start = .ok held.file := fileFor_eq_ok.2 (hr.file held hh).symm
    rw [hstart, h] at hok
    cases hok

theorem enter_of_error (hr : (w.slot key).Ready s) (h : s.fileFor name start = .error f) :
    (enter s w key name start).1 = .error f := by
  rw [enter_eq_stepInto hr h, stepInto_of_error h]

theorem readRecordAt_of_ok (hs : w.HasSlot key) (hr : (w.slot key).Ready s)
    (h : s.recordAt name window time = .ok g) :
    ∃ w₁ held, readRecordAt s w key name window time = (.item g, w₁) ∧
      w₁.slot key = { w.slot key with
        timestamp := some time, handle := some held, fileTime := some held.start } ∧
      s.openAt held.start = .ok held.file ∧ ∃ path, s.describe held.start = .ok path := by
  obtain ⟨start, file, hw, hf, hg⟩ := recordAt_eq_ok.1 h
  obtain ⟨w₁, id, he, hslot⟩ := enter_of_ok hs hr hf
  have hs₁ : w₁.HasSlot key := World.hasSlot_of_handle (by rw [hslot])
  have hh : (w₁.slot key).handle = some ⟨id, start, file⟩ := by rw [hslot]
  simp only [readRecordAt, hw, he, World.readHeld, hh, World.readRecord, hg]
  refine ⟨_, ⟨id, start, file⟩, rfl, ?_, ((fileFor_eq_ok.1 hf).symm)⟩
  rw [World.slot_modify_self (by exact hs₁), World.slot_record, hslot]

theorem readRecordAt_of_error (hs : w.HasSlot key) (hr : (w.slot key).Ready s)
    (h : s.recordAt name window time = .error f) :
    (readRecordAt s w key name window time).1 = .failed f := by
  unfold Source.recordAt at h
  cases hw : window.fileStart? time with
  | none => simpa [readRecordAt, hw] using h
  | some start =>
    cases hf : s.fileFor name start with
    | error f' =>
      have he := enter_of_error hr hf
      rcases hr' : enter s w key name start with ⟨r, w₁⟩
      rw [hr'] at he
      cases he
      simpa [readRecordAt, hw, hf, hr'] using h
    | ok file =>
      obtain ⟨w₁, id, he, hslot⟩ := enter_of_ok hs hr hf
      have hh : (w₁.slot key).handle = some ⟨id, start, file⟩ := by rw [hslot]
      simp only [hw, hf, Attempt.within] at h
      simp only [readRecordAt, hw, he, World.readHeld, hh, World.readRecord]
      cases hg : file.read name (window.recordIndex time) with
      | error f' => simpa [hg] using h
      | ok g => simp [hg] at h

/-! ## The next record -/

theorem readNext_of_none
    (h : (Cursor.mk window (w.slot key).position).recordTime? 0 = none) :
    readNext s w key name window = (.finished, w) := by
  rw [readNext, Cursor.advance_of_none h]

theorem readNext_of_ok {next : Instant} (hs : w.HasSlot key) (hr : (w.slot key).Ready s)
    (ht : (Cursor.mk window (w.slot key).position).recordTime? 0 = some time)
    (hnext : time.shift? window.record.micros = some next)
    (h : s.recordAt name window time = .ok g) :
    ∃ w₁, readNext s w key name window = (.item g, w₁) ∧ (w₁.slot key).Ready s ∧
      (w₁.slot key).timestamp = some time ∧ (w₁.slot key).position = next := by
  rw [readNext, Cursor.advance_of_shift ht hnext]
  have hslot := World.slot_modify_self (f := fun slot => { slot with position := next }) hs
  have hs' : (w.modify key fun slot => { slot with position := next }).HasSlot key :=
    World.hasSlot_modify.2 hs
  obtain ⟨w₁, held, hread, hslot₁, hfile⟩ :=
    readRecordAt_of_ok hs' (hslot ▸ ⟨hr.failure, hr.fileTime, hr.file⟩) h
  refine ⟨w₁, hread, ?_, by rw [hslot₁], by rw [hslot₁, hslot]⟩
  rw [hslot₁, hslot]
  refine ⟨hr.failure, rfl, fun h e => ?_⟩
  cases e
  exact hfile

theorem readNext_of_error {next : Instant} (hs : w.HasSlot key) (hr : (w.slot key).Ready s)
    (ht : (Cursor.mk window (w.slot key).position).recordTime? 0 = some time)
    (hnext : time.shift? window.record.micros = some next)
    (h : s.recordAt name window time = .error f) :
    (readNext s w key name window).1 = .failed f := by
  rw [readNext, Cursor.advance_of_shift ht hnext]
  refine readRecordAt_of_error (World.hasSlot_modify.2 hs) ?_ h
  rw [World.slot_modify_self hs]
  exact ⟨hr.failure, hr.fileTime, hr.file⟩

end Producer

end GridStream
