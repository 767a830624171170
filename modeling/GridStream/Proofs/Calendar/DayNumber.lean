import GridStream.Calendar.Instant
import Mathlib.Logic.Function.Basic

/-!
# Days and their numbers

The date of a day determines its number (`Date.dayNumber_ofDayNumber`), so two instants have the
same date just if they lie in the same day (`Instant.date_eq_iff`).
-/

namespace GridStream

namespace Date

theorem daysBeforeMonth_succ {year month : Nat} (h : 1 ≤ month) :
    daysBeforeMonth year (month + 1) = daysBeforeMonth year month + daysInMonth year month := by
  obtain ⟨m, rfl⟩ : ∃ m, month = m + 1 := ⟨month - 1, by omega⟩
  rw [daysBeforeMonth]

/-- The search for the month neither gains nor loses a day. -/
theorem daysBeforeMonth_monthOfOffset {year : Nat} (tries month offset : Nat) (h : 1 ≤ month) :
    daysBeforeMonth year (monthOfOffset year tries month offset).1 +
        (monthOfOffset year tries month offset).2 =
      daysBeforeMonth year month + offset := by
  induction tries generalizing month offset with
  | zero => rfl
  | succ tries ih =>
    rw [monthOfOffset]
    split
    · rfl
    · rw [ih (month + 1) _ (by omega), daysBeforeMonth_succ h]
      omega

/-- The days before a year that is given as periods of 400, 100, 4 and single years. -/
theorem daysBeforeYear_periods {a c q y : Nat} (hc : c ≤ 3) (hq : q ≤ 24) (hy : y ≤ 3) :
    daysBeforeYear (a * 400 + c * 100 + q * 4 + y + 1) =
      a * 146097 + c * 36524 + q * 1461 + y * 365 := by
  unfold daysBeforeYear
  have h4 : (a * 400 + c * 100 + q * 4 + y + 1 - 1) / 4 = a * 100 + c * 25 + q := by omega
  have h100 : (a * 400 + c * 100 + q * 4 + y + 1 - 1) / 100 = a * 4 + c := by omega
  have h400 : (a * 400 + c * 100 + q * 4 + y + 1 - 1) / 400 = a := by omega
  dsimp only
  rw [h4, h100, h400]
  omega

/-- A day is found back from its date. -/
theorem dayNumber_ofDayNumber (n : Nat) : (ofDayNumber n).dayNumber = n := by
  let in400 := n % 146097
  let c := min 3 (in400 / 36524)
  let in100 := in400 - c * 36524
  let in4 := in100 % 1461
  let y := min 3 (in4 / 365)
  let year := n / 146097 * 400 + c * 100 + in100 / 1461 * 4 + y + 1
  have hyear : daysBeforeYear year =
      n / 146097 * 146097 + c * 36524 + in100 / 1461 * 1461 + y * 365 :=
    daysBeforeYear_periods (by omega) (by omega) (by omega)
  have hmonth := @daysBeforeMonth_monthOfOffset year 11 1 (in4 - y * 365) (by omega)
  change daysBeforeYear year + (daysBeforeMonth year (monthOfOffset year 11 1 _).1 +
    ((monthOfOffset year 11 1 _).2 + 1)) - 1 = n
  rw [← Nat.add_assoc (daysBeforeMonth year _), hmonth, hyear]
  have h0 : daysBeforeMonth year 1 = 0 := rfl
  omega

theorem ofDayNumber_injective : Function.Injective ofDayNumber :=
  Function.LeftInverse.injective dayNumber_ofDayNumber

end Date

theorem Instant.date_eq_iff {a b : Instant} :
    a.date = b.date ↔ a.micros / microsPerDay = b.micros / microsPerDay :=
  Date.ofDayNumber_injective.eq_iff

end GridStream
