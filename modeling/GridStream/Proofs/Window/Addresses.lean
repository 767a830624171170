import GridStream.Proofs.Window.Files

/-!
# Addresses of times

The address of a time is the file that covers it and its index there. The records of a window, as
if it went on for ever in both directions, are numbered from its start (`Window.recordNumber`), and
an address is such a number divided by the number of records of a file, with its remainder
(`Window.fileNumber_eq`, `Window.recordIndex_eq`). So the addresses cut the time axis into intervals
of one record each (`Window.covers_iff`), in the order of time (`Window.recordNumber_lt_iff`).
-/

namespace GridStream.Window

variable {w : Window} {t u a b : Instant} {i n : Int}

/-- Whether a time belongs to the record with index `i` of the file that starts at `a`. -/
structure Covers (w : Window) (a : Instant) (i : Int) (t : Instant) : Prop where
  /-- Files start at whole numbers of file lengths from the start of the window. -/
  inStep : w.file.micros ∣ a.since w.start
  nonneg : 0 ≤ i
  lt : i < w.recordsPerFile
  from_le : (a.micros : Int) + i * w.record.micros ≤ t.micros
  lt_to : (t.micros : Int) < a.micros + (i + 1) * w.record.micros

/-- The number of the record that a time belongs to, counted from the start of the window on, and
backwards before it. -/
def recordNumber (w : Window) (t : Instant) : Int := t.since w.start / w.record.micros

theorem recordNumber_eq_iff : w.recordNumber t = n ↔
    n * w.record.micros ≤ t.since w.start ∧ t.since w.start < (n + 1) * w.record.micros := by
  rw [recordNumber, ← Int.le_ediv_iff_mul_le w.record_pos, ← Int.ediv_lt_iff_lt_mul w.record_pos]
  omega

/-- A record has the number with which it is counted. -/
theorem recordNumber_of_since (h : t.since w.start = n * w.record.micros) :
    w.recordNumber t = n := by
  rw [recordNumber, h, Int.mul_ediv_cancel _ (Int.ne_of_gt w.record_pos)]

theorem recordNumber_next (h : u.since t = w.record.micros) :
    w.recordNumber u = w.recordNumber t + 1 := by
  have hu : u.since w.start = t.since w.start + w.record.micros := by
    unfold Instant.since at *
    omega
  rw [recordNumber, recordNumber, hu, Int.add_ediv_of_dvd_right (Int.dvd_refl _),
    Int.ediv_self (Int.ne_of_gt w.record_pos)]

theorem fileNumber_eq : w.fileNumber t = w.recordNumber t / w.recordsPerFile := by
  rw [fileNumber, recordNumber, file_eq, Int.mul_comm,
    Int.ediv_ediv_of_nonneg (Int.le_of_lt w.record_pos)]

theorem recordIndex_eq : w.recordIndex t = w.recordNumber t % w.recordsPerFile := by
  have hr := Int.ne_of_gt w.record_pos
  rw [recordIndex, Int.emod_def, ← fileNumber, fileNumber_eq, Int.emod_def (w.recordNumber t),
    file_eq, Int.mul_comm w.recordsPerFile, Int.mul_assoc, Int.sub_eq_add_neg, ← Int.mul_neg,
    Int.add_mul_ediv_left _ _ hr, recordNumber, Int.sub_eq_add_neg]

theorem fileStart?_eq_some :
    w.fileStart? t = some a ↔ a.since w.start = w.fileNumber t * w.file.micros := by
  rw [fileStart?, Instant.shift?_eq_some, Instant.since]
  omega

/-! ## What an address covers -/

/-- Every time belongs to exactly one record of one file. -/
theorem covers_iff : w.Covers a i t ↔ w.fileStart? t = some a ∧ w.recordIndex t = i := by
  have hq := w.recordsPerFile_pos
  rw [fileStart?_eq_some, fileNumber_eq, recordIndex_eq]
  constructor
  · rintro ⟨⟨k, hk⟩, hi, hlt, hfrom, hto⟩
    -- The record has the number `q * k + i`, of which `k` and `i` are quotient and remainder.
    rw [file_eq, Int.mul_right_comm] at hk
    have hn : w.recordNumber t = i + w.recordsPerFile * k := by
      rw [recordNumber_eq_iff]
      simp only [Int.add_mul, Int.one_mul] at hto ⊢
      unfold Instant.since at hk ⊢
      omega
    obtain ⟨hdiv, hmod⟩ := (Int.ediv_emod_unique hq).2 ⟨hn.symm, hi, hlt⟩
    rw [hdiv, hmod, hk, file_eq, ← Int.mul_assoc, Int.mul_comm k]
    exact ⟨rfl, rfl⟩
  · rintro ⟨ha, rfl⟩
    obtain ⟨hfrom, hto⟩ := recordNumber_eq_iff.1 (rfl : w.recordNumber t = w.recordNumber t)
    have hn := Int.mul_ediv_add_emod (w.recordNumber t) w.recordsPerFile
    have hmul : w.recordNumber t * w.record.micros = a.since w.start +
        w.recordNumber t % w.recordsPerFile * w.record.micros := by
      rw [ha, file_eq, ← Int.mul_assoc, ← Int.add_mul, Int.mul_comm (_ / _), hn]
    refine ⟨⟨_, ha.trans (Int.mul_comm ..)⟩, Int.emod_nonneg _ (Int.ne_of_gt hq),
      Int.emod_lt_of_pos _ hq, ?_, ?_⟩
    · unfold Instant.since at *
      omega
    · rw [Int.add_mul] at hto ⊢
      unfold Instant.since at *
      omega

theorem covers_of_fileStart? (h : w.fileStart? t = some a) : w.Covers a (w.recordIndex t) t :=
  covers_iff.2 ⟨h, rfl⟩

/-- A time that belongs to a record belongs to the file of the record. -/
theorem Covers.lt_next (h : w.Covers a i t) : (t.micros : Int) < a.micros + w.file.micros := by
  have hle : (i + 1) * w.record.micros ≤ w.recordsPerFile * w.record.micros :=
    Int.mul_le_mul_of_nonneg_right h.lt (Int.le_of_lt w.record_pos)
  have hto := h.lt_to
  rw [file_eq]
  omega

theorem Covers.le (h : w.Covers a i t) : a ≤ t := by
  have hpos : 0 ≤ i * w.record.micros := Int.mul_nonneg h.nonneg (Int.le_of_lt w.record_pos)
  have hfrom := h.from_le
  change a.micros ≤ t.micros
  omega

/-- A time that lies a whole number of record lengths from the start is where its record lies. -/
theorem Covers.eq_iff (h : w.Covers a i t) :
    (a.micros : Int) + i * w.record.micros = t.micros ↔ w.record.micros ∣ t.since w.start := by
  have hrecord : w.record.micros ∣ a.since w.start + i * w.record.micros := by
    refine Int.dvd_add (Int.dvd_trans ?_ h.inStep) (Int.dvd_mul_left ..)
    exact Int.dvd_of_emod_eq_zero w.whole
  have hsum : t.since w.start = (t.micros - (a.micros + i * w.record.micros)) +
      (a.since w.start + i * w.record.micros) := by
    unfold Instant.since
    omega
  have hfrom := h.from_le
  have hto := h.lt_to
  rw [Int.add_mul, Int.one_mul] at hto
  rw [hsum, Int.dvd_add_left hrecord]
  constructor
  · intro e
    rw [e, Int.sub_self]
    exact Int.dvd_zero _
  · intro hdvd
    have hzero := Int.eq_zero_of_dvd_of_nonneg_of_lt (by omega) (by omega) hdvd
    omega

/-! ## The order of addresses -/

/-- A file with a higher number starts later. -/
theorem lt_iff_of_fileStart? (ha : w.fileStart? t = some a) (hb : w.fileStart? u = some b) :
    a < b ↔ w.fileNumber t < w.fileNumber u := by
  rw [fileStart?_eq_some] at ha hb
  rw [Instant.lt_iff, ← Int.mul_lt_mul_right w.file_pos, ← ha, ← hb]
  unfold Instant.since
  omega

theorem eq_iff_of_fileStart? (ha : w.fileStart? t = some a) (hb : w.fileStart? u = some b) :
    a = b ↔ w.fileNumber t = w.fileNumber u := by
  constructor
  · rintro rfl
    rw [fileStart?_eq_some] at ha hb
    exact Int.eq_of_mul_eq_mul_right (Int.ne_of_gt w.file_pos) (ha.symm.trans hb)
  · intro h
    rw [fileStart?, ← h] at hb
    exact Option.some.inj (ha.symm.trans hb)

/-- The addresses are in the order of the records. -/
theorem recordNumber_lt_iff (ha : w.fileStart? t = some a) (hb : w.fileStart? u = some b) :
    w.recordNumber t < w.recordNumber u ↔ a < b ∨ a = b ∧ w.recordIndex t < w.recordIndex u := by
  have hq := w.recordsPerFile_pos
  rw [lt_iff_of_fileStart? ha hb, eq_iff_of_fileStart? ha hb, recordIndex_eq, recordIndex_eq,
    fileNumber_eq, fileNumber_eq]
  generalize w.recordNumber t = m
  generalize w.recordNumber u = n
  have hm := Int.mul_ediv_add_emod m w.recordsPerFile
  have hn := Int.mul_ediv_add_emod n w.recordsPerFile
  constructor
  · intro h
    rcases Int.lt_or_eq_of_le (Int.ediv_le_ediv hq (Int.le_of_lt h)) with hlt | heq
    · exact .inl hlt
    · rw [heq] at hm
      exact .inr ⟨heq, by omega⟩
  · rintro (h | ⟨h, hlt⟩)
    · exact Int.lt_of_not_ge fun hge => absurd (Int.ediv_le_ediv hq hge) (Int.not_le.2 h)
    · rw [h] at hm
      omega

/-- The time one record later has the next address: the next index, or the first one of the next
file. -/
theorem fileStart?_next (h : u.since t = w.record.micros) (ha : w.fileStart? t = some a) :
    (w.recordIndex t + 1 < w.recordsPerFile →
      w.fileStart? u = some a ∧ w.recordIndex u = w.recordIndex t + 1) ∧
    (w.recordIndex t + 1 = w.recordsPerFile →
      (∃ b, w.fileStart? u = some b ∧ b.since a = w.file.micros) ∧ w.recordIndex u = 0) := by
  have ht := covers_of_fileStart? ha
  have hr := w.record_pos
  have hfrom := ht.from_le
  have hto := ht.lt_to
  rw [Int.add_mul, Int.one_mul] at hto
  unfold Instant.since at h
  refine ⟨fun hlt => covers_iff.1 ⟨ht.inStep, ?_, hlt, ?_, ?_⟩, fun hlast => ?_⟩
  · have := ht.nonneg
    omega
  · rw [Int.add_mul, Int.one_mul]
    omega
  · rw [Int.add_mul _ 1, Int.add_mul, Int.one_mul]
    omega
  · have hfile : w.file.micros = w.recordIndex t * w.record.micros + w.record.micros := by
      rw [file_eq, ← hlast, Int.add_mul, Int.one_mul]
    have hu := u.inRange
    have hf := w.file_pos
    let b : Instant := ⟨(a.micros + w.file.micros).toNat, by omega⟩
    have hb : (b.micros : Int) = a.micros + w.file.micros := Int.toNat_of_nonneg (by omega)
    have hsince : b.since w.start = a.since w.start + w.file.micros := by
      unfold Instant.since
      omega
    have hcovers : w.Covers b 0 u := by
      refine ⟨?_, Int.le_refl _, w.recordsPerFile_pos, by omega, by omega⟩
      rw [hsince]
      exact Int.dvd_add ht.inStep (Int.dvd_refl _)
    obtain ⟨hstart, hindex⟩ := covers_iff.1 hcovers
    refine ⟨⟨b, hstart, ?_⟩, hindex⟩
    unfold Instant.since
    omega

/-- A time on the boundary of two files belongs to the one that starts there. -/
theorem fileStart?_boundary (h : w.file.micros ∣ t.since w.start) :
    w.fileStart? t = some t ∧ w.recordIndex t = 0 := by
  have hr := w.record_pos
  exact covers_iff.1 ⟨h, Int.le_refl _, w.recordsPerFile_pos, by omega, by omega⟩

/-- Addressing is a partition of the time axis, for every window and all times of the calendar, also
those before the start and behind the end of the window. A time is covered by the one record of the
one file that it is addressed to, if that file starts within the calendar, as it does for all times
from the start of the window on. The time is where its record lies just if it lies a whole number of
record lengths from the start. Along these times, the addresses strictly increase, first by the file
and then by the index; behind the last index of a file comes the first one of the next, so that a
time on the boundary of two files belongs to the one that starts there. -/
theorem addresses_partition (w : Window) :
    (∀ t a i, w.Covers a i t ↔ w.fileStart? t = some a ∧ w.recordIndex t = i) ∧
    (∀ t a, w.fileStart? t = some a →
      a ≤ t ∧ (t.micros : Int) < a.micros + w.file.micros ∧
      ((a.micros : Int) + w.recordIndex t * w.record.micros = t.micros ↔
        w.record.micros ∣ t.since w.start)) ∧
    (∀ t, w.start ≤ t → (w.fileStart? t).isSome) ∧
    (∀ (m n : Int) t u a b, t.since w.start = m * w.record.micros →
      u.since w.start = n * w.record.micros → w.fileStart? t = some a → w.fileStart? u = some b →
      (m < n ↔ a < b ∨ a = b ∧ w.recordIndex t < w.recordIndex u)) ∧
    (∀ t u a, u.since t = w.record.micros → w.fileStart? t = some a →
      (w.recordIndex t + 1 < w.recordsPerFile →
        w.fileStart? u = some a ∧ w.recordIndex u = w.recordIndex t + 1) ∧
      (w.recordIndex t + 1 = w.recordsPerFile →
        (∃ b, w.fileStart? u = some b ∧ b.since a = w.file.micros) ∧ w.recordIndex u = 0)) ∧
    ∀ t, w.file.micros ∣ t.since w.start → w.fileStart? t = some t ∧ w.recordIndex t = 0 := by
  refine ⟨fun t a i => covers_iff, fun t a h => ?_, fun t h => isSome_fileStart? h,
    fun m n t u a b hm hn ha hb => ?_, fun t u a => fileStart?_next, fun t => fileStart?_boundary⟩
  · have hc := covers_of_fileStart? h
    exact ⟨hc.le, hc.lt_next, hc.eq_iff⟩
  · rw [← recordNumber_lt_iff ha hb, recordNumber_of_since hm, recordNumber_of_since hn]

/-- Half an hour before the start belongs to the last record of a file, and two hours later to the
first one of the next, which starts with the window. -/
theorem addresses_partition_around_start :
    sixHourFiles.Covers ⟨64800000000, by decide⟩ 2 ⟨84600000000, by decide⟩ ∧
      (∃ b, sixHourFiles.fileStart? ⟨91800000000, by decide⟩ = some b ∧
        b.since ⟨64800000000, by decide⟩ = sixHourFiles.file.micros) ∧
      sixHourFiles.recordIndex ⟨91800000000, by decide⟩ = 0 := by
  obtain ⟨hcovers, -, -, -, hnext, -⟩ := addresses_partition sixHourFiles
  refine ⟨(hcovers _ _ _).2 ⟨by decide, by decide⟩, ?_⟩
  exact (hnext ⟨84600000000, by decide⟩ _ ⟨64800000000, by decide⟩ (by decide) (by decide)).2
    (by decide)

end GridStream.Window
