import GridStream.Failure

/-!
# Attempts

How attempts succeed and fail that are made of others. Whatever fails as part of an operation
leaves it with a failure of the family (`Failure.not_foreign_within`).
-/

namespace GridStream

namespace Attempt
variable {ε ε' α β : Type}

theorem bind_eq_ok {x : Except ε α} {f : α → Except ε β} {b : β} :
    x >>= f = .ok b ↔ ∃ a, x = .ok a ∧ f a = .ok b := by
  cases x <;> simp [bind, Except.bind]

theorem map_eq_ok {x : Except ε α} {f : α → β} {b : β} :
    x.map f = .ok b ↔ ∃ a, x = .ok a ∧ f a = b := by
  cases x <;> simp [Except.map]

@[simp] theorem mapError_ok {f : ε → ε'} {a : α} :
    (Except.ok a : Except ε α).mapError f = .ok a := rfl

@[simp] theorem mapError_error {f : ε → ε'} {e : ε} :
    (Except.error e : Except ε α).mapError f = .error (f e) := rfl

theorem mapError_eq_ok {x : Except ε α} {f : ε → ε'} {a : α} :
    x.mapError f = .ok a ↔ x = .ok a := by
  cases x <;> simp

theorem mapError_eq_error {x : Except ε α} {f : ε → ε'} {e : ε'} :
    x.mapError f = .error e ↔ ∃ d, x = .error d ∧ f d = e := by
  cases x <;> simp

/-- What succeeds alike fails alike. -/
theorem exists_error_congr {x y : Except ε α} (h : ∀ a, x = .ok a ↔ y = .ok a) :
    (∃ e, x = .error e) ↔ ∃ e, y = .error e := by
  have hnot : ∀ z : Except ε α, (∃ e, z = .error e) ↔ ∀ a, z ≠ .ok a := fun z => by
    cases z <;> simp
  rw [hnot, hnot]
  exact forall_congr' fun a => not_congr (h a)

/-- Every item of a list has a result, or there is a first one that has none. -/
theorem forall_ok_or_first_error (a : α → Except ε β) (l : List α) :
    (∀ x ∈ l, ∃ y, a x = .ok y) ∨ ∃ before x after e, l = before ++ x :: after ∧
      (∀ x' ∈ before, ∃ y, a x' = .ok y) ∧ a x = .error e := by
  induction l with
  | nil => exact .inl (by simp)
  | cons x l ih =>
    cases hx : a x with
    | error e => exact .inr ⟨[], x, l, e, rfl, by simp, hx⟩
    | ok y =>
      rcases ih with hall | ⟨before, x', after, e, rfl, hbefore, he⟩
      · exact .inl (List.forall_mem_cons.2 ⟨⟨y, hx⟩, hall⟩)
      · exact .inr ⟨x :: before, x', after, e, rfl, List.forall_mem_cons.2 ⟨⟨y, hx⟩, hbefore⟩, he⟩

/-- A list is gone through if every item of it has a result. -/
theorem mapM_eq_some_iff {f : α → Option β} {as : List α} {bs : List β} :
    as.mapM f = some bs ↔ as.map f = bs.map some := by
  induction as generalizing bs with
  | nil => cases bs <;> simp
  | cons a as ih =>
    simp only [List.mapM_cons, Option.bind_eq_bind, Option.pure_def, Option.bind_eq_some_iff,
      Option.some.injEq, ih, List.map_cons]
    constructor
    · rintro ⟨b, hb, bs, hbs, rfl⟩
      rw [hb, hbs, List.map_cons]
    · intro h
      obtain ⟨b, bs, rfl⟩ : ∃ b cs, bs = b :: cs := by
        cases bs with
        | nil => cases h
        | cons b bs => exact ⟨b, bs, rfl⟩
      rw [List.map_cons, List.cons.injEq] at h
      exact ⟨b, h.1, bs, h.2, rfl⟩

theorem isSome_mapM_iff {f : α → Option β} {as : List α} :
    (as.mapM f).isSome ↔ ∀ a ∈ as, (f a).isSome := by
  constructor
  · intro h a ha
    obtain ⟨bs, hbs⟩ := Option.isSome_iff_exists.1 h
    have hmem := mapM_eq_some_iff.1 hbs ▸ List.mem_map_of_mem (f := f) ha
    obtain ⟨b, -, hb⟩ := List.mem_map.1 hmem
    rw [← hb]
    rfl
  · intro h
    induction as with
    | nil => rfl
    | cons a as ih =>
      rw [List.forall_mem_cons] at h
      obtain ⟨b, hb⟩ := Option.isSome_iff_exists.1 h.1
      obtain ⟨bs, hbs⟩ := Option.isSome_iff_exists.1 (ih h.2)
      rw [List.mapM_cons, hb, hbs]
      rfl

theorem isSome_mapM_array_iff {f : α → Option β} {as : Array α} :
    (as.mapM f).isSome ↔ ∀ a ∈ as, (f a).isSome := by
  rw [Array.mapM_eq_mapM_toList]
  change ((as.toList.mapM f).map List.toArray).isSome ↔ _
  rw [Option.isSome_map, isSome_mapM_iff]
  exact forall_congr' fun a => by rw [Array.mem_toList_iff]

end Attempt

namespace Failure

/-- Whether a failure is of no kind of the family. -/
def Foreign (f : Failure) : Prop := f.kind.isForeign = true

theorem not_foreign_within {op : Operation} {f : Failure} : ¬ (f.within op).Foreign := by
  unfold Foreign within
  cases h : f.kind.isForeign with
  | true => simp [FailureKind.isForeign]
  | false => simp [h]

theorem not_foreign_of_within {op : Operation} {a : Attempt α} {f : Failure}
    (h : a.within op = .error f) : ¬ f.Foreign := by
  obtain ⟨d, -, rfl⟩ := Attempt.mapError_eq_error.1 h
  exact not_foreign_within

end Failure

end GridStream
