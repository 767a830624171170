import GridStream.Proofs.Window.Records

/-!
# The files of a window

Every file holds the same number of records. The records of a window are numbered from its start;
number `n` is record `n % q` of file `n / q`, where `q` is the number of records of a file
(`Window.fileStart?_recordTime`, `Window.recordIndex_recordTime`).
-/

namespace GridStream.Window

variable {w : Window} {n : Nat} {t a : Instant}

/-- Whether a file that holds records of the window starts at a time. -/
def StartsFile (w : Window) (a : Instant) : Prop :=
  ∃ n t, (Cursor.atStart w).recordTime? n = some t ∧ w.fileStart? t = some a

theorem file_eq : w.file.micros = w.recordsPerFile * w.record.micros :=
  (Int.ediv_mul_cancel (Int.dvd_of_emod_eq_zero w.whole)).symm

theorem file_pos : 0 < w.file.micros :=
  Int.lt_of_lt_of_le w.record_pos w.record_le_file

/-- The bounds and intervals of a window pass the checks. -/
theorem make?_self (w : Window) : make? w.start w.stop w.record w.file = .ok w := by
  rw [make?, dif_pos w.start_le_stop, dif_pos ⟨w.record_pos, w.file_pos⟩, dif_pos w.record_le_file,
    dif_pos w.whole]

theorem recordsPerFile_pos : 0 < w.recordsPerFile := by
  have hf := w.file_pos
  rw [file_eq] at hf
  exact Int.pos_of_mul_pos_left hf w.record_pos

/-- A file starts no later than any of its records. -/
theorem fileOffset_le (w : Window) (n : Nat) :
    n / w.recordsPerFile * w.file.micros ≤ n * w.record.micros := by
  rw [file_eq, ← Int.mul_assoc]
  exact Int.mul_le_mul_of_nonneg_right
    (Int.ediv_mul_le _ (Int.ne_of_gt w.recordsPerFile_pos)) (Int.le_of_lt w.record_pos)

theorem recordTime?_atStart : (Cursor.atStart w).recordTime? n = some t ↔
    (t.micros : Int) = w.start.micros + n * w.record.micros ∧ t < w.stop :=
  Cursor.recordTime?_eq_some

theorem since_recordTime (h : (Cursor.atStart w).recordTime? n = some t) :
    t.since w.start = n * w.record.micros := by
  obtain ⟨ht, -⟩ := recordTime?_atStart.1 h
  rw [Instant.since]
  omega

theorem recordIndex_recordTime (h : (Cursor.atStart w).recordTime? n = some t) :
    w.recordIndex t = n % w.recordsPerFile := by
  rw [recordIndex, since_recordTime h, file_eq, Int.mul_comm n, Int.mul_comm w.recordsPerFile,
    Int.mul_emod_mul_of_pos _ _ w.record_pos,
    Int.mul_ediv_cancel_left _ (Int.ne_of_gt w.record_pos)]

theorem fileStart?_recordTime (h : (Cursor.atStart w).recordTime? n = some t) :
    w.fileStart? t = some a ↔
      (a.micros : Int) = w.start.micros + n / w.recordsPerFile * w.file.micros := by
  have hn : w.fileNumber t = n / w.recordsPerFile := by
    rw [fileNumber, since_recordTime h, file_eq, Int.mul_ediv_mul_of_pos_left _ _ w.record_pos]
  rw [fileStart?, hn, Instant.shift?_eq_some]

/-- The first record of a file that starts within the window lies at its start. -/
theorem recordTime?_of_startsFile {i q : Nat} (hq : w.recordsPerFile = q) (hs : a < w.stop)
    (ha : (a.micros : Int) = w.start.micros + i * w.file.micros) :
    (Cursor.atStart w).recordTime? (i * q) = some a ∧ w.fileStart? a = some a ∧
      w.recordIndex a = 0 := by
  have hrec : (Cursor.atStart w).recordTime? (i * q) = some a := by
    refine recordTime?_atStart.2 ⟨?_, hs⟩
    rw [ha, file_eq, hq, Int.natCast_mul, Int.mul_assoc]
  have hpos : (q : Int) ≠ 0 := hq ▸ Int.ne_of_gt w.recordsPerFile_pos
  refine ⟨hrec, (fileStart?_recordTime hrec).2 ?_, ?_⟩
  · rw [hq, Int.natCast_mul, Int.mul_ediv_cancel _ hpos, ha]
  · rw [recordIndex_recordTime hrec, hq, Int.natCast_mul, Int.mul_emod_left]

theorem exists_recordsPerFile (w : Window) : ∃ q : Nat, w.recordsPerFile = q :=
  Int.eq_ofNat_of_zero_le (Int.le_of_lt w.recordsPerFile_pos)

/-- The files of a window start at equal distances from its start on. -/
theorem startsFile_iff : w.StartsFile a ↔
    a < w.stop ∧ ∃ i : Nat, (a.micros : Int) = w.start.micros + i * w.file.micros := by
  obtain ⟨q, hq⟩ := w.exists_recordsPerFile
  constructor
  · rintro ⟨n, t, h, ha⟩
    rw [fileStart?_recordTime h] at ha
    obtain ⟨ht, hs⟩ := recordTime?_atStart.1 h
    have hle := w.fileOffset_le n
    rw [Instant.lt_iff] at hs ⊢
    exact ⟨by omega, n / q, by rw [ha, hq, Int.natCast_ediv]⟩
  · rintro ⟨hs, i, ha⟩
    obtain ⟨hrec, hfile, -⟩ := recordTime?_of_startsFile hq hs ha
    exact ⟨i * q, a, hrec, hfile⟩

/-- Every time of the window from its start on lies in a file. -/
theorem isSome_fileStart? (h : w.start.micros ≤ t.micros) : (w.fileStart? t).isSome := by
  have hle : t.since w.start / w.file.micros * w.file.micros ≤ t.since w.start :=
    Int.ediv_mul_le _ (Int.ne_of_gt w.file_pos)
  have hpos : 0 ≤ t.since w.start / w.file.micros * w.file.micros :=
    Int.mul_nonneg (Int.ediv_nonneg (by unfold Instant.since; omega) (Int.le_of_lt w.file_pos))
      (Int.le_of_lt w.file_pos)
  have hr := t.inRange
  rw [fileStart?, Instant.isSome_shift?, fileNumber]
  unfold Instant.since at *
  omega

/-- Every record lies in a file. -/
theorem exists_fileStart (h : (Cursor.atStart w).recordTime? n = some t) :
    ∃ a, w.fileStart? t = some a := by
  obtain ⟨ht, hs⟩ := recordTime?_atStart.1 h
  have hle := w.fileOffset_le n
  have hpos : 0 ≤ n / w.recordsPerFile * w.file.micros :=
    Int.mul_nonneg (Int.ediv_nonneg (Int.natCast_nonneg n) (Int.le_of_lt w.recordsPerFile_pos))
      (Int.le_of_lt w.file_pos)
  have hr := t.inRange
  exact ⟨⟨(w.start.micros + n / w.recordsPerFile * w.file.micros).toNat, by omega⟩,
    (fileStart?_recordTime h).2 (Int.toNat_of_nonneg (by omega))⟩

end GridStream.Window
