import GridStream.Proofs.Window.Addresses
import Mathlib.Algebra.Ring.Divisibility.Basic
import Mathlib.Algebra.Ring.Int.Defs

/-!
# Files in step with midnight

Where a window starts at a midnight and a day is a whole number of files, files start at whole
numbers of file lengths from the beginning of the calendar, whichever midnight it is. So the address
of a time is the same in all such windows with the same intervals (`Window.InStep.address_eq`), and
a record of one of them is a record of every other that spans its time
(`Window.InStep.exists_recordTime`). One of them is the window from the midnight before a time up to
the time (`Window.single`), from which a single record is read.
-/

namespace GridStream.Window

variable {w w' : Window} {t a : Instant} {i : Int} {n : Nat}

/-- Whether a file of the window starts at each midnight. -/
structure InStep (w : Window) : Prop where
  start : w.start.timeOfDay = 0
  day : w.file.micros ∣ microsPerDay

namespace InStep

theorem file_dvd_start (h : w.InStep) : w.file.micros ∣ w.start.micros :=
  Int.dvd_trans h.day (Int.natCast_dvd_natCast.2 (Nat.dvd_of_mod_eq_zero h.start))

theorem record_dvd_start (h : w.InStep) : w.record.micros ∣ w.start.micros :=
  Int.dvd_trans (Int.dvd_of_emod_eq_zero w.whole) h.file_dvd_start

/-- Where the files start does not depend on the start of the window. -/
theorem file_dvd_since (h : w.InStep) :
    w.file.micros ∣ a.since w.start ↔ w.file.micros ∣ (a.micros : Int) :=
  dvd_sub_left h.file_dvd_start

theorem covers_iff (h : w.InStep) (h' : w'.InStep) (hr : w'.record = w.record)
    (hf : w'.file = w.file) : w'.Covers a i t ↔ w.Covers a i t := by
  have hq : w'.recordsPerFile = w.recordsPerFile := by rw [recordsPerFile, recordsPerFile, hr, hf]
  have hstep : w'.file.micros ∣ a.since w'.start ↔ w.file.micros ∣ a.since w.start := by
    rw [h'.file_dvd_since, h.file_dvd_since, hf]
  constructor
  · rintro ⟨hs, hi, hlt, hfrom, hto⟩
    exact ⟨hstep.1 hs, hi, hq ▸ hlt, hr ▸ hfrom, hr ▸ hto⟩
  · rintro ⟨hs, hi, hlt, hfrom, hto⟩
    exact ⟨hstep.2 hs, hi, hq ▸ hlt, hr ▸ hfrom, hr ▸ hto⟩

/-- The address of a time is the same whatever midnight the window starts at. -/
theorem address_eq (h : w.InStep) (h' : w'.InStep) (hr : w'.record = w.record)
    (hf : w'.file = w.file) (ha : w.fileStart? t = some a) :
    w'.fileStart? t = some a ∧ w'.recordIndex t = w.recordIndex t :=
  Window.covers_iff.1 ((h.covers_iff h' hr hf).2 (Window.covers_iff.2 ⟨ha, rfl⟩))

/-- A record is passed by every such window that spans its time. -/
theorem exists_recordTime (h : w.InStep) (h' : w'.InStep) (hr : w'.record = w.record)
    (ht : (Cursor.atStart w).recordTime? n = some t) (hfrom : w'.start ≤ t) (hto : t < w'.stop) :
    ∃ m, (Cursor.atStart w').recordTime? m = some t := by
  have hdvd : w'.record.micros ∣ t.since w'.start := by
    have hrecord : w'.record.micros ∣ (t.micros : Int) := by
      rw [(recordTime?_atStart.1 ht).1, hr]
      exact Int.dvd_add h.record_dvd_start (Int.dvd_mul_left _ _)
    exact Int.dvd_sub hrecord h'.record_dvd_start
  obtain ⟨m, hm⟩ := hdvd
  have hpos := w'.record_pos
  have hnonneg : 0 ≤ w'.record.micros * m := by
    rw [← hm, Instant.since]
    exact Int.sub_nonneg_of_le (Int.ofNat_le.2 hfrom)
  obtain ⟨m, rfl⟩ := Int.eq_ofNat_of_zero_le (Int.nonneg_of_mul_nonneg_right hnonneg hpos)
  refine ⟨m, recordTime?_atStart.2 ⟨?_, hto⟩⟩
  rw [Int.mul_comm, ← hm, Instant.since]
  omega

end InStep

/-! ## The window of a single record -/

/-- The window from the midnight before a time up to the time, with the intervals of another. -/
def single (w : Window) (t : Instant) : Window where
  __ := w
  start := t.midnight
  stop := t
  start_le_stop := Nat.sub_le _ _

theorem make?_single : make? t.midnight t w.record w.file = .ok (w.single t) :=
  make?_self (w.single t)

theorem timeOfDay_midnight : t.midnight.timeOfDay = 0 :=
  Nat.mod_eq_zero_of_dvd (Nat.dvd_sub_mod t.micros)

theorem InStep.single (h : w.InStep) : (w.single t).InStep := ⟨timeOfDay_midnight, h.day⟩

end GridStream.Window
