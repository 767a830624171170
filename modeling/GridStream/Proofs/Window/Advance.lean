import GridStream.Proofs.Window.Records

/-!
# Runs of a cursor

A cursor is stepped over records and set back to the start of its window. From wherever it stands,
as many steps succeed, one after the other, as records remain, and the times that they pass are
those of the records ahead (`Cursor.calls_replicate`, `Cursor.remaining_predicts`).
-/

namespace GridStream.Cursor

/-- What can be done with a cursor. -/
inductive Call
  | advance
  | reset

/-- The cursor after a call. A step that passes no record leaves it where it is. -/
def call (c : Cursor) : Call → Cursor
  | .advance =>
    match c.advance with
    | .record _ next => next
    | .exhausted | .outOfCalendar => c
  | .reset => c.reset

/-- The cursor after several calls. -/
def calls (c : Cursor) (cs : List Call) : Cursor := cs.foldl call c

variable {c next : Cursor} {cs : List Call} {k : Nat} {t : Instant}

theorem calls_cons {e : Call} : c.calls (e :: cs) = (c.call e).calls cs := rfl

theorem calls_replicate_succ : c.calls (List.replicate (k + 1) .advance) =
    (c.calls (List.replicate k .advance)).call .advance := by
  rw [List.replicate_succ', calls, List.foldl_append]
  rfl

theorem call_of_record (h : c.advance = .record t next) : c.call .advance = next := by
  rw [call, h]

theorem call_of_exhausted (h : c.advance = .exhausted) : c.call .advance = c := by
  rw [call, h]

theorem call_of_outOfCalendar (h : c.advance = .outOfCalendar) : c.call .advance = c := by
  rw [call, h]

theorem window_call {e : Call} : (c.call e).window = c.window := by
  cases e with
  | reset => rfl
  | advance =>
    cases h : c.advance with
    | record t next => rw [call_of_record h, (advance_eq_record h).2.1]
    | exhausted => rw [call_of_exhausted h]
    | outOfCalendar => rw [call_of_outOfCalendar h]

theorem window_calls : (c.calls cs).window = c.window := by
  induction cs generalizing c with
  | nil => rfl
  | cons e cs ih => rw [calls_cons, ih, window_call]

/-! ## When a step fails -/

theorem recordTime?_zero_eq_none : c.recordTime? 0 = none ↔ c.exhausted := by
  rw [← Option.not_isSome_iff_eq_none, isSome_recordTime?, exhausted_iff]
  omega

theorem advance_eq_exhausted_iff : c.advance = .exhausted ↔ c.exhausted :=
  ⟨advance_eq_exhausted, fun h => advance_of_none (recordTime?_zero_eq_none.2 h)⟩

theorem remaining_eq_zero : c.remaining = 0 ↔ c.exhausted := by
  rw [← recordTime?_zero_eq_none, recordTime?_eq_none, Int.natCast_zero]
  have hnonneg := c.remaining_nonneg
  omega

theorem advance_eq_outOfCalendar_iff : c.advance = .outOfCalendar ↔ ¬ c.exhausted ∧
    (Date.dayLimit * microsPerDay : Nat) ≤ c.current.micros + c.window.record.micros := by
  have hshift : c.current.shift? c.window.record.micros = none ↔ _ :=
    Option.not_isSome_iff_eq_none.symm.trans (not_congr Instant.isSome_shift?)
  have hpos := c.window.record_pos
  simp only [advance_eq_outOfCalendar, recordTime?_zero]
  constructor
  · rintro ⟨_, ⟨he, rfl⟩, hs⟩
    have := hshift.1 hs
    exact ⟨he, by omega⟩
  · rintro ⟨he, hs⟩
    exact ⟨_, ⟨he, rfl⟩, hshift.2 (by omega)⟩

/-! ## Steps one after the other -/

/-- Steps take a cursor to each record that lies ahead: behind the records before it there is always
a further one, so that none of them is the last of the calendar. -/
theorem calls_replicate (h : c.recordTime? k = some t) :
    c.calls (List.replicate k .advance) = ⟨c.window, t⟩ := by
  induction k generalizing t with
  | zero =>
    obtain ⟨-, rfl⟩ := recordTime?_zero.1 h
    rfl
  | succ k ih =>
    obtain ⟨u, hu⟩ : ∃ u, c.recordTime? k = some u :=
      Option.isSome_iff_exists.1 (lt_remaining.1 (by
        have := lt_remaining.2 (Option.isSome_of_eq_some h)
        omega))
    obtain ⟨hut, hus⟩ := recordTime?_eq_some.1 hu
    obtain ⟨ht, -⟩ := recordTime?_eq_some.1 h
    have hshift : u.shift? c.window.record.micros = some t := by
      rw [Instant.shift?_eq_some, ht, hut, Int.natCast_succ, Int.add_mul]
      omega
    have hne : ¬ (Cursor.mk c.window u).exhausted := by
      rw [exhausted_iff, Nat.not_le]
      exact Instant.lt_iff.1 hus
    rw [calls_replicate_succ, ih hu]
    refine call_of_record (t := u) ?_
    rw [advance, if_neg hne]
    simp only [hshift]

/-- As many steps succeed as records remain. -/
theorem advance_calls_of_lt (hc : c.InCalendar) (hk : (k : Int) < c.remaining) :
    ∃ t next, (c.calls (List.replicate k .advance)).advance = .record t next ∧
      (t.micros : Int) = c.current.micros + k * c.window.record.micros := by
  obtain ⟨t, ht⟩ := Option.isSome_iff_exists.1 (lt_remaining.1 hk)
  obtain ⟨u, hu⟩ := Option.isSome_iff_exists.1 (hc k t ht)
  obtain ⟨hmicros, hs⟩ := recordTime?_eq_some.1 ht
  have hne : ¬ (Cursor.mk c.window t).exhausted := by
    rw [exhausted_iff, Nat.not_le]
    exact Instant.lt_iff.1 hs
  refine ⟨t, ⟨c.window, u⟩, ?_, hmicros⟩
  rw [calls_replicate ht, advance, if_neg hne]
  simp only [hu]

/-- Behind the last record, every step finds the window exhausted. -/
theorem advance_calls_of_le (hc : c.InCalendar) (hk : c.remaining ≤ k) :
    (c.calls (List.replicate k .advance)).advance = .exhausted := by
  induction k generalizing c with
  | zero => exact advance_of_none (recordTime?_eq_none.2 hk)
  | succ k ih =>
    rw [List.replicate_succ, calls_cons]
    cases ha : c.advance with
    | record t next =>
      obtain ⟨he, hw, hn⟩ := advance_eq_record ha
      have hrest := remaining_next he hw hn
      rw [call_of_record ha]
      exact ih (hc.next hw hn) (by omega)
    | exhausted =>
      have hzero := remaining_eq_zero.2 (advance_eq_exhausted ha)
      rw [call_of_exhausted ha]
      exact ih hc (by omega)
    | outOfCalendar =>
      obtain ⟨t, ht, hs⟩ := advance_eq_outOfCalendar.1 ha
      have hin := hc 0 t ht
      rw [hs] at hin
      cases hin

/-- What is known of a cursor, wherever its first position is and whatever steps and returns to the
start have led to the present one. The number of records that remain is the number of steps that
succeed one after the other before the window is exhausted, if the calendar goes on behind the last
record. A step that succeeds gives the time where the cursor stands, which lies ahead of the end,
moves the cursor on by one record and leaves one record less. No record remains just where the
window is exhausted; a step says so and changes nothing, nor does one that would leave the calendar.
Back at the start, the cursor passes again exactly the records of the window. -/
theorem remaining_predicts {c₀ : Cursor} (h : c₀.calls cs = c) :
    c.window = c₀.window ∧
    (c.InCalendar → ∀ k : Nat,
      ((k : Int) < c.remaining →
        ∃ t next, (c.calls (List.replicate k .advance)).advance = .record t next ∧
          (t.micros : Int) = c.current.micros + k * c.window.record.micros) ∧
      (c.remaining ≤ k → (c.calls (List.replicate k .advance)).advance = .exhausted)) ∧
    (∀ t next, c.advance = .record t next →
      t = c.current ∧ t < c.window.stop ∧ c.call .advance = next ∧ next.window = c.window ∧
        next.current.since c.current = c.window.record.micros ∧
        next.remaining + 1 = c.remaining) ∧
    (0 ≤ c.remaining ∧ (c.remaining = 0 ↔ c.exhausted) ∧ (c.advance = .exhausted ↔ c.exhausted) ∧
      (c.exhausted → c.call .advance = c)) ∧
    (c.call .reset = atStart c.window ∧ ((atStart c.window).InCalendar → ∀ k : Nat,
      ((c.window.start.micros : Int) + k * c.window.record.micros < c.window.stop.micros →
        ∃ t next, (c.calls (.reset :: List.replicate k .advance)).advance = .record t next ∧
          (t.micros : Int) = c.window.start.micros + k * c.window.record.micros) ∧
      ((c.window.stop.micros : Int) ≤ c.window.start.micros + k * c.window.record.micros →
        (c.calls (.reset :: List.replicate k .advance)).advance = .exhausted))) ∧
    (c.advance = .outOfCalendar ↔ ¬ c.exhausted ∧
      (Date.dayLimit * microsPerDay : Nat) ≤ c.current.micros + c.window.record.micros) ∧
    (c.advance = .outOfCalendar → c.call .advance = c) := by
  have hstart : ∀ k : Nat, (k : Int) < (atStart c.window).remaining ↔
      (c.window.start.micros : Int) + k * c.window.record.micros < c.window.stop.micros :=
    fun k => lt_remaining.trans isSome_recordTime?
  refine ⟨h ▸ window_calls, fun hc k => ⟨advance_calls_of_lt hc, advance_calls_of_le hc⟩,
    fun t next ha => ?_, ⟨c.remaining_nonneg, remaining_eq_zero, advance_eq_exhausted_iff,
      fun he => call_of_exhausted (advance_eq_exhausted_iff.2 he)⟩,
    ⟨rfl, fun hc k => ⟨fun hk => ?_, fun hk => ?_⟩⟩, advance_eq_outOfCalendar_iff,
    call_of_outOfCalendar⟩
  · obtain ⟨he, hw, hn⟩ := advance_eq_record ha
    obtain rfl := time_of_advance ha
    refine ⟨rfl, ?_, call_of_record ha, hw, ?_, remaining_next he hw hn⟩
    · rw [exhausted_iff, Nat.not_le] at he
      exact Instant.lt_iff.2 he
    · rw [Instant.since, hn]
      omega
  · exact advance_calls_of_lt hc ((hstart k).2 hk)
  · exact advance_calls_of_le hc
      (Int.not_lt.1 fun hlt => absurd ((hstart k).1 hlt) (Int.not_lt.2 hk))

/-- A step from half an hour before the start of a window of two hours leads to half an hour before
its end, from where one further step succeeds. -/
theorem remaining_predicts_off_grid :
    (Cursor.mk .sixHourFiles ⟨84600000000, by decide⟩).calls [.advance] =
      ⟨.sixHourFiles, ⟨91800000000, by decide⟩⟩ ∧
    (Cursor.mk .sixHourFiles ⟨91800000000, by decide⟩).InCalendar ∧
    (Cursor.mk .sixHourFiles ⟨91800000000, by decide⟩).remaining = 1 ∧
    ((Cursor.mk .sixHourFiles ⟨91800000000, by decide⟩).calls [.advance]).advance = .exhausted := by
  have h : (Cursor.mk .sixHourFiles ⟨84600000000, by decide⟩).calls [.advance] =
      ⟨.sixHourFiles, ⟨91800000000, by decide⟩⟩ := rfl
  have hc : (Cursor.mk .sixHourFiles ⟨91800000000, by decide⟩).InCalendar :=
    inCalendar_of_stop (by decide)
  exact ⟨h, hc, by decide, ((remaining_predicts h).2.1 hc 1).2 (by decide)⟩

end GridStream.Cursor
