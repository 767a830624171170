import GridStream.Calendar.Instant

/-!
# Shifts of instants

An instant is its number of microseconds, and a shift adds to that number wherever the calendar
allows it.
-/

namespace GridStream.Instant

theorem ext {a b : Instant} (h : a.micros = b.micros) : a = b := by
  cases a
  cases b
  cases h
  rfl

theorem lt_iff {a b : Instant} : a < b ↔ a.micros < b.micros := .rfl

theorem ofMicros?_eq_some {u : Instant} {n : Int} :
    ofMicros? n = some u ↔ (u.micros : Int) = n := by
  have hu := u.inRange
  unfold ofMicros?
  constructor
  · intro h
    split at h
    · next hn =>
      cases h
      exact Int.toNat_of_nonneg hn.1
    · cases h
  · intro h
    have hn : n.toNat = u.micros := by omega
    rw [dif_pos ⟨by omega, by omega⟩]
    exact congrArg some (ext hn)

theorem shift?_eq_some {t u : Instant} {n : Int} :
    t.shift? n = some u ↔ (u.micros : Int) = t.micros + n :=
  ofMicros?_eq_some

theorem isSome_shift? {t : Instant} {n : Int} : (t.shift? n).isSome ↔
    0 ≤ t.micros + n ∧ t.micros + n < (Date.dayLimit * microsPerDay : Nat) := by
  rw [Option.isSome_iff_exists]
  constructor
  · rintro ⟨u, hu⟩
    have h := shift?_eq_some.1 hu
    have hr := u.inRange
    omega
  · intro h
    exact ⟨⟨(t.micros + n).toNat, by omega⟩, shift?_eq_some.2 (Int.toNat_of_nonneg h.1)⟩

end GridStream.Instant
