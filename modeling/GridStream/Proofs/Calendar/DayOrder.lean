import GridStream.Proofs.Calendar.DayNumber
import GridStream.Proofs.Calendar.Instant

/-!
# The order of days

Days are in the order of their numbers (`Date.dayNumber_lt_iff`). Hence the number of a day
determines its date, for all days of the calendar (`Date.ofDayNumber_dayNumber`), and midnights are
in the order of their dates (`Instant.lt_iff_before`).
-/

namespace GridStream

namespace Date

variable {a b d : Date} {year month n : Nat}

/-- Whether a day comes before another one: by year, then by month, then by day. -/
def Before (a b : Date) : Prop :=
  a.year < b.year ∨ a.year = b.year ∧
    (a.month < b.month ∨ a.month = b.month ∧ a.day < b.day)

theorem before_or_eq_or_before (a b : Date) : a.Before b ∨ a = b ∨ b.Before a := by
  rcases a with ⟨y, m, d⟩
  rcases b with ⟨y', m', d'⟩
  simp only [Before, Date.mk.injEq]
  omega

/-! ## Years and months -/

theorem daysInYear (year : Nat) :
    daysBeforeMonth year 13 = 365 + if isLeap year then 1 else 0 := by
  simp only [daysBeforeMonth, daysInMonth]
  split <;> rfl

theorem isLeap_iff : isLeap year = true ↔ 4 ∣ year ∧ (¬ 100 ∣ year ∨ 400 ∣ year) := by
  simp [isLeap, Nat.dvd_iff_mod_eq_zero]

theorem daysBeforeYear_succ (h : 1 ≤ year) :
    daysBeforeYear (year + 1) = daysBeforeYear year + daysBeforeMonth year 13 := by
  obtain ⟨y, rfl⟩ : ∃ y, year = y + 1 := ⟨year - 1, by omega⟩
  have h100 : 100 ∣ y + 1 → 4 ∣ y + 1 := Nat.dvd_trans (by decide)
  have h400 : 400 ∣ y + 1 → 100 ∣ y + 1 := Nat.dvd_trans (by decide)
  have hle : y / 100 ≤ y / 4 := Nat.div_le_div_left (by decide) (by decide)
  simp only [daysInYear, isLeap_iff, daysBeforeYear, Nat.add_sub_cancel, Nat.succ_div]
  -- What the quotients are has no part in the rest.
  generalize y / 4 = q4, y / 100 = q100, y / 400 = q400 at hle ⊢
  by_cases h4 : 4 ∣ y + 1 <;> by_cases h1 : 100 ∣ y + 1 <;> by_cases h4' : 400 ∣ y + 1 <;>
    simp_all <;> omega

theorem daysBeforeYear_le {m n : Nat} (hm : 1 ≤ m) (h : m < n) :
    daysBeforeYear m + daysBeforeMonth m 13 ≤ daysBeforeYear n := by
  rw [← daysBeforeYear_succ hm]
  induction h with
  | refl => exact Nat.le_refl _
  | @step n hn ih =>
    have hn1 : 1 ≤ n := Nat.le_trans hm (Nat.le_of_lt hn)
    exact Nat.le_trans ih (daysBeforeYear_succ hn1 ▸ Nat.le_add_right ..)

theorem daysBeforeMonth_mono {m n : Nat} (h : m ≤ n) :
    daysBeforeMonth year m ≤ daysBeforeMonth year n := by
  induction h with
  | refl => exact Nat.le_refl _
  | @step n _ ih =>
    refine Nat.le_trans ih ?_
    cases n with
    | zero => exact Nat.le_refl _
    | succ n => exact Nat.le_add_right ..

/-! ## Numbers of days -/

theorem Valid.day_le (h : d.Valid) : d.day ≤ 31 := by
  have hd := h.2.2.2.2.2
  unfold daysInMonth at hd
  split at hd
  · split at hd <;> omega
  all_goals omega

/-- A day lies within its month. -/
theorem Valid.dayOfYear_le (h : d.Valid) : d.dayOfYear ≤ daysBeforeMonth d.year (d.month + 1) := by
  obtain ⟨-, -, hm, -, -, hd⟩ := h
  rw [dayOfYear, daysBeforeMonth_succ hm]
  omega

/-- A day lies within its year. -/
theorem Valid.dayOfYear_le_daysInYear (h : d.Valid) :
    d.dayOfYear ≤ daysBeforeMonth d.year 13 :=
  Nat.le_trans h.dayOfYear_le (daysBeforeMonth_mono (Nat.succ_le_succ h.2.2.2.1))

theorem Valid.one_le_dayOfYear (h : d.Valid) : 1 ≤ d.dayOfYear := by
  have hd := h.2.2.2.2.1
  unfold dayOfYear
  omega

theorem Before.dayNumber_lt (ha : a.Valid) (hb : b.Valid) (h : a.Before b) :
    a.dayNumber < b.dayNumber := by
  have hfirst := ha.one_le_dayOfYear
  have hfirst' := hb.one_le_dayOfYear
  unfold dayNumber
  rcases h with hy | ⟨hy, hm | ⟨hm, hd⟩⟩
  · have hle := daysBeforeYear_le ha.1 hy
    have hlast := ha.dayOfYear_le_daysInYear
    omega
  · have hlast := ha.dayOfYear_le
    have hle : daysBeforeMonth a.year (a.month + 1) ≤ daysBeforeMonth b.year b.month := by
      rw [hy]
      exact daysBeforeMonth_mono hm
    have hday := hb.2.2.2.2.1
    have hnext : b.dayOfYear = daysBeforeMonth b.year b.month + b.day := rfl
    rw [hy]
    omega
  · have hday : a.dayOfYear = daysBeforeMonth b.year b.month + a.day := by
      rw [dayOfYear, hy, hm]
    have hday' : b.dayOfYear = daysBeforeMonth b.year b.month + b.day := rfl
    rw [hy]
    omega

theorem dayNumber_lt_iff (ha : a.Valid) (hb : b.Valid) :
    a.dayNumber < b.dayNumber ↔ a.Before b := by
  refine ⟨fun h => ?_, fun h => h.dayNumber_lt ha hb⟩
  rcases before_or_eq_or_before a b with hab | rfl | hba
  · exact hab
  · exact absurd h (Nat.lt_irrefl _)
  · exact absurd h (Nat.lt_asymm (hba.dayNumber_lt hb ha))

theorem eq_of_dayNumber_eq (ha : a.Valid) (hb : b.Valid) (h : a.dayNumber = b.dayNumber) :
    a = b := by
  rcases before_or_eq_or_before a b with hab | rfl | hba
  · exact absurd h (Nat.ne_of_lt (hab.dayNumber_lt ha hb))
  · rfl
  · exact absurd h (Nat.ne_of_gt (hba.dayNumber_lt hb ha))

theorem Valid.dayNumber_lt (h : d.Valid) : d.dayNumber < dayLimit := by
  have hlast : (⟨9999, 12, 31⟩ : Date).Valid := by decide
  have hday := h.day_le
  have hlimit : (⟨9999, 12, 31⟩ : Date).dayNumber + 1 = dayLimit := by decide
  have hle : ¬ (⟨9999, 12, 31⟩ : Date).Before d := by
    have hy := h.2.1
    have hm := h.2.2.2.1
    unfold Before
    dsimp only
    omega
  have hnot := mt (dayNumber_lt_iff hlast h).1 hle
  omega

/-! ## Dates of numbers -/

/-- The search for the month ends at a month that has the day. -/
theorem monthOfOffset_bounds (tries month offset : Nat) (hm : 1 ≤ month)
    (h : daysBeforeMonth year month + offset < daysBeforeMonth year (month + tries + 1)) :
    1 ≤ (monthOfOffset year tries month offset).1 ∧
      (monthOfOffset year tries month offset).1 ≤ month + tries ∧
      (monthOfOffset year tries month offset).2 <
        daysInMonth year (monthOfOffset year tries month offset).1 := by
  induction tries generalizing month offset with
  | zero =>
    rw [Nat.add_zero, daysBeforeMonth_succ hm] at h
    exact ⟨hm, Nat.le_refl _, Nat.lt_of_add_lt_add_left h⟩
  | succ tries ih =>
    rw [monthOfOffset]
    split
    · next hlt => exact ⟨hm, Nat.le_add_right .., hlt⟩
    · next hge =>
      have hnext : daysBeforeMonth year (month + 1) =
          daysBeforeMonth year month + daysInMonth year month := daysBeforeMonth_succ hm
      have hlast : month + 1 + tries = month + (tries + 1) := by omega
      have hbounds := ih (month + 1) (offset - daysInMonth year month) (Nat.le_succ_of_le hm) (by
        rw [hlast]
        omega)
      rw [hlast] at hbounds
      exact hbounds

theorem valid_ofDayNumber (h : n < dayLimit) : (ofDayNumber n).Valid := by
  let in400 := n % 146097
  let c := min 3 (in400 / 36524)
  let in100 := in400 - c * 36524
  let in4 := in100 % 1461
  let y := min 3 (in4 / 365)
  let year := n / 146097 * 400 + c * 100 + in100 / 1461 * 4 + y + 1
  have hlimit : n < 3652059 := h
  have hyear : year ≤ 9999 := by omega
  -- Only a leap year has a day number 365.
  have hoffset : in4 - y * 365 < daysBeforeMonth year 13 := by
    rw [daysInYear]
    split
    · omega
    · next hl =>
      rw [isLeap_iff] at hl
      omega
  obtain ⟨hlow, hhigh, hday⟩ := @monthOfOffset_bounds year 11 1 (in4 - y * 365)
    (Nat.le_refl _) (by simpa [daysBeforeMonth] using hoffset)
  exact ⟨Nat.succ_pos _, hyear, hlow, hhigh, Nat.succ_pos _, hday⟩

theorem ofDayNumber_dayNumber (h : d.Valid) : ofDayNumber d.dayNumber = d :=
  eq_of_dayNumber_eq (valid_ofDayNumber h.dayNumber_lt) h (dayNumber_ofDayNumber _)

end Date

namespace Instant

variable {t u : Instant} {d : Date}

theorem valid_date (t : Instant) : t.date.Valid :=
  Date.valid_ofDayNumber (Nat.div_lt_of_lt_mul (Nat.mul_comm .. ▸ t.inRange))

theorem dayNumber_date (t : Instant) : t.date.dayNumber = t.micros / microsPerDay :=
  Date.dayNumber_ofDayNumber _

/-- A midnight lies a whole number of days from the beginning of the calendar. -/
theorem micros_of_midnight (h : t.timeOfDay = 0) : t.micros = t.date.dayNumber * microsPerDay := by
  rw [dayNumber_date, Nat.div_mul_cancel (Nat.dvd_of_mod_eq_zero h)]

/-- The only midnight of a day. -/
theorem date_and_midnight_iff (hd : d.Valid) :
    t.date = d ∧ t.timeOfDay = 0 ↔ t.micros = d.dayNumber * microsPerDay := by
  constructor
  · rintro ⟨rfl, ht⟩
    exact micros_of_midnight ht
  · intro ht
    rw [date, timeOfDay, ht, Nat.mul_div_cancel _ (by decide), Nat.mul_mod_left]
    exact ⟨Date.ofDayNumber_dayNumber hd, rfl⟩

theorem ofDate?_eq_some : ofDate? d = some t ↔ d.Valid ∧ t.date = d ∧ t.timeOfDay = 0 := by
  have hparts : Date.ofParts? d.year d.month d.day = if d.Valid then some d else none := rfl
  have hzero : (0 : Nat) < microsPerDay := by decide
  unfold ofDate? ofParts?
  rw [hparts]
  by_cases hd : d.Valid
  · rw [if_pos hd]
    dsimp only
    rw [if_pos hzero, ofMicros?_eq_some, date_and_midnight_iff hd, and_iff_right hd,
      Int.natCast_zero, Int.add_zero, ← Int.natCast_mul, Int.natCast_inj]
  · rw [if_neg hd]
    simp [hd]

theorem isSome_ofDate? (hd : d.Valid) : (ofDate? d).isSome := by
  have hlt : d.dayNumber * microsPerDay < Date.dayLimit * microsPerDay :=
    Nat.mul_lt_mul_of_pos_right hd.dayNumber_lt (by decide)
  have h : ofDate? d = some ⟨_, hlt⟩ := ofDate?_eq_some.2 ⟨hd, (date_and_midnight_iff hd).2 rfl⟩
  rw [h]
  rfl

/-- Midnights are in the order of their dates. -/
theorem lt_iff_before (ht : t.timeOfDay = 0) (hu : u.timeOfDay = 0) :
    t < u ↔ t.date.Before u.date := by
  rw [lt_iff, micros_of_midnight ht, micros_of_midnight hu,
    Nat.mul_lt_mul_right (by decide), Date.dayNumber_lt_iff t.valid_date u.valid_date]

end Instant

end GridStream
