import GridStream.Window
import GridStream.Proofs.Calendar.Instant
import Mathlib.Tactic.Ring

/-!
# The records that lie ahead

The records that a cursor has yet to pass lie at equal distances from its position up to the end of
the window. A step passes the first of them (`Cursor.advance_of_shift`), after which the others lie
ahead in the same order (`Cursor.recordTime?_next`), and `Cursor.remaining` counts them
(`Cursor.lt_remaining`).
-/

namespace GridStream

namespace Cursor
variable {c : Cursor} {k : Nat} {t : Instant}

/-- The time of a record that lies ahead, if the window has so many. -/
def recordTime? (c : Cursor) (k : Nat) : Option Instant :=
  if (c.current.micros : Int) + k * c.window.record.micros < c.window.stop.micros then
    c.current.shift? (k * c.window.record.micros)
  else none

/-- A cursor behind whose last record the calendar goes on for another step. -/
def InCalendar (c : Cursor) : Prop :=
  ∀ k t, c.recordTime? k = some t → (t.shift? c.window.record.micros).isSome

private theorem offset_nonneg (c : Cursor) (k : Nat) : 0 ≤ (k : Int) * c.window.record.micros :=
  Int.mul_nonneg (Int.natCast_nonneg k) (Int.le_of_lt c.window.record_pos)

theorem exhausted_iff : c.exhausted ↔ c.window.stop.micros ≤ c.current.micros :=
  decide_eq_true_iff

theorem recordTime?_eq_some : c.recordTime? k = some t ↔
    (t.micros : Int) = c.current.micros + k * c.window.record.micros ∧ t < c.window.stop := by
  unfold recordTime?
  constructor
  · intro h
    split at h
    · next hk =>
      have ht := Instant.shift?_eq_some.1 h
      exact ⟨ht, Instant.lt_iff.2 (by omega)⟩
    · cases h
  · rintro ⟨ht, hs⟩
    rw [Instant.lt_iff] at hs
    rw [if_pos (by omega)]
    exact Instant.shift?_eq_some.2 ht

theorem isSome_recordTime? : (c.recordTime? k).isSome ↔
    (c.current.micros : Int) + k * c.window.record.micros < c.window.stop.micros := by
  constructor
  · intro h
    obtain ⟨t, ht⟩ := Option.isSome_iff_exists.1 h
    obtain ⟨ht, hs⟩ := recordTime?_eq_some.1 ht
    rw [Instant.lt_iff] at hs
    omega
  · intro h
    have hn := c.offset_nonneg k
    have hstop := c.window.stop.inRange
    refine Option.isSome_iff_exists.2
      ⟨⟨((c.current.micros : Int) + k * c.window.record.micros).toNat, by omega⟩, ?_⟩
    refine recordTime?_eq_some.2 ⟨Int.toNat_of_nonneg (by omega), Instant.lt_iff.2 ?_⟩
    dsimp only
    omega

/-- A cursor has as many records ahead as remain. -/
theorem lt_remaining : (k : Int) < c.remaining ↔ (c.recordTime? k).isSome := by
  rw [isSome_recordTime?]
  unfold remaining
  split
  · next h =>
    have hn := c.offset_nonneg k
    rw [exhausted_iff] at h
    omega
  · have hd : -(c.window.stop.since c.current) / c.window.record.micros < -(k : Int) ↔
        -(c.window.stop.since c.current) < -(k : Int) * c.window.record.micros :=
      Int.ediv_lt_iff_lt_mul c.window.record_pos
    rw [Int.neg_mul, Instant.since] at hd
    rw [Instant.since]
    omega

theorem recordTime?_eq_none : c.recordTime? k = none ↔ c.remaining ≤ k := by
  rw [← Option.not_isSome_iff_eq_none, ← lt_remaining, Int.not_lt]

theorem remaining_nonneg (c : Cursor) : 0 ≤ c.remaining := by
  unfold remaining
  split
  · exact Int.le_refl 0
  · next h =>
    rw [exhausted_iff] at h
    have hd : -(c.window.stop.since c.current) / c.window.record.micros < 1 := by
      rw [Int.ediv_lt_iff_lt_mul c.window.record_pos, Instant.since]
      have hp := c.window.record_pos
      omega
    omega

/-! ## Steps -/

/-- The first record ahead is where the cursor stands. -/
theorem recordTime?_zero : c.recordTime? 0 = some t ↔ ¬ c.exhausted ∧ t = c.current := by
  rw [recordTime?_eq_some, exhausted_iff, Nat.not_le]
  constructor
  · rintro ⟨ht, hs⟩
    obtain rfl : t = c.current := Instant.ext (by omega)
    exact ⟨Instant.lt_iff.1 hs, rfl⟩
  · rintro ⟨hs, rfl⟩
    exact ⟨by simp, Instant.lt_iff.2 hs⟩

theorem advance_of_none (h : c.recordTime? 0 = none) : c.advance = .exhausted := by
  by_cases he : c.exhausted
  · rw [advance, if_pos he]
  · rw [recordTime?_zero.2 ⟨he, rfl⟩] at h
    cases h

theorem advance_of_shift {u : Instant} (h : c.recordTime? 0 = some t)
    (hu : t.shift? c.window.record.micros = some u) :
    c.advance = .record t { c with current := u } := by
  obtain ⟨he, rfl⟩ := recordTime?_zero.1 h
  rw [advance, if_neg he, hu]

/-- A step passes over one record. -/
theorem advance_eq_record {next : Cursor} (h : c.advance = .record t next) :
    ¬ c.exhausted ∧ next.window = c.window ∧
      (next.current.micros : Int) = c.current.micros + c.window.record.micros := by
  unfold advance at h
  split at h
  · cases h
  · next hne =>
    split at h
    · next u hu =>
      cases h
      exact ⟨hne, rfl, Instant.shift?_eq_some.1 hu⟩
    · cases h

theorem advance_eq_exhausted (h : c.advance = .exhausted) : c.exhausted := by
  unfold advance at h
  split at h
  · assumption
  · split at h <;> cases h

/-- The record that is passed over is the one that the cursor stands at. -/
theorem time_of_advance {next : Cursor} (h : c.advance = .record t next) :
    t = c.current := by
  unfold advance at h
  split at h
  · cases h
  · split at h
    · cases h
      rfl
    · cases h

/-- A cursor steps out of the calendar from a record that is the last before its end. -/
theorem advance_eq_outOfCalendar : c.advance = .outOfCalendar ↔
    ∃ t, c.recordTime? 0 = some t ∧ t.shift? c.window.record.micros = none := by
  simp only [recordTime?_zero]
  unfold advance
  constructor
  · intro h
    split at h
    · cases h
    · next hne =>
      split at h
      · cases h
      · next hshift => exact ⟨_, ⟨hne, rfl⟩, hshift⟩
  · rintro ⟨_, ⟨hne, rfl⟩, hshift⟩
    rw [if_neg hne, hshift]

theorem recordTime?_next {next : Cursor} (hw : next.window = c.window)
    (hn : (next.current.micros : Int) = c.current.micros + c.window.record.micros) :
    next.recordTime? k = c.recordTime? (k + 1) := by
  have hk : ((k + 1 : Nat) : Int) * c.window.record.micros =
      k * c.window.record.micros + c.window.record.micros := by
    push_cast
    ring
  ext t
  simp only [recordTime?_eq_some, hw, hn, hk]
  constructor <;> exact fun ⟨ht, hs⟩ => ⟨by omega, hs⟩

/-- Each record but the first is one step behind another. -/
theorem exists_recordTime?_of_succ {u : Instant} (h : c.recordTime? (k + 1) = some u) :
    ∃ t, c.recordTime? k = some t ∧ t.shift? c.window.record.micros = some u := by
  obtain ⟨hu, hs⟩ := recordTime?_eq_some.1 h
  have hk : ((k + 1 : Nat) : Int) * c.window.record.micros =
      k * c.window.record.micros + c.window.record.micros := by
    push_cast
    ring
  have hpos := c.window.record_pos
  rw [hk] at hu
  rw [Instant.lt_iff] at hs
  have hsome : (c.recordTime? k).isSome := isSome_recordTime?.2 (by omega)
  obtain ⟨t, ht⟩ := Option.isSome_iff_exists.1 hsome
  obtain ⟨hmicros, -⟩ := recordTime?_eq_some.1 ht
  exact ⟨t, ht, Instant.shift?_eq_some.2 (by omega)⟩

/-- A step leaves one record less. -/
theorem remaining_next {next : Cursor} (he : ¬ c.exhausted) (hw : next.window = c.window)
    (hn : (next.current.micros : Int) = c.current.micros + c.window.record.micros) :
    next.remaining + 1 = c.remaining := by
  have hlt : ∀ k : Nat, (k : Int) < next.remaining ↔ (k + 1 : Int) < c.remaining := fun k => by
    have hk := lt_remaining (c := c) (k := k + 1)
    rw [lt_remaining, recordTime?_next hw hn, ← hk]
    push_cast
    exact Iff.rfl
  have hpos : (0 : Nat) < c.remaining := by
    rw [exhausted_iff] at he
    rw [lt_remaining, isSome_recordTime?]
    omega
  obtain ⟨m, hm⟩ := Int.eq_ofNat_of_zero_le next.remaining_nonneg
  obtain ⟨n, hn⟩ := Int.eq_ofNat_of_zero_le c.remaining_nonneg
  have hlast := hlt (n - 1)
  have hnext := hlt m
  omega

theorem InCalendar.next {next : Cursor} (hc : c.InCalendar) (hw : next.window = c.window)
    (hn : (next.current.micros : Int) = c.current.micros + c.window.record.micros) :
    next.InCalendar := by
  intro k t h
  rw [recordTime?_next hw hn] at h
  rw [hw]
  exact hc _ _ h

/-- It is enough that the calendar goes on for a step behind the end of the window. -/
theorem inCalendar_of_stop (h : (c.window.stop.shift? c.window.record.micros).isSome) :
    c.InCalendar := by
  intro k t ht
  obtain ⟨-, hs⟩ := recordTime?_eq_some.1 ht
  have hp := c.window.record_pos
  rw [Instant.lt_iff] at hs
  rw [Instant.isSome_shift?] at h ⊢
  omega

end Cursor

/-- The first two hours of the second day, with a record every two hours and files of six. -/
def Window.sixHourFiles : Window where
  start := ⟨86400000000, by decide⟩
  stop := ⟨93600000000, by decide⟩
  record := .hours 2
  file := .hours 6
  start_le_stop := by decide
  record_pos := by decide
  record_le_file := by decide
  whole := by decide

end GridStream
