import GridStream.Proofs.Producer.Move

/-!
# Taking a pull apart

What must have happened where a pull has a given answer, for all answers and without any assumption
on the world. A raw producer has read a record, or has none left. A combined producer has been
given a grid by each of its inputs, or has passed on the answer of the first that gave none.
-/

namespace GridStream.Producer

variable {s : Source} {w w' : World} {key : Nat} {name : String} {window : Window} {title : Value}
  {rule : Rule} {first p : Producer} {others ps : List Producer} {g : Grid} {gs : List Grid}
  {f : Failure}

/-! ## The end of a pull -/

theorem settle_eq_item {r : Pull Grid × World} :
    settle p r = (.item g, w') ↔ r = (.item g, w') := by
  obtain ⟨_ | _ | _, w₁⟩ := r <;> simp [settle]

theorem settle_eq_finished {r : Pull Grid × World} :
    settle p r = (.finished, w') ↔ ∃ w₁, r = (.finished, w₁) ∧ close w₁ p = w' := by
  obtain ⟨_ | _ | _, w₁⟩ := r <;> simp [settle]

theorem settle_eq_failed {r : Pull Grid × World} : settle p r = (.failed f, w') ↔
    ∃ w₁, r = (.failed f, w₁) ∧
      close (w₁.modify p.key fun slot => { slot with failure := some f }) p = w' := by
  obtain ⟨_ | _ | f', w₁⟩ := r
  · simp [settle]
  · simp [settle]
  · simp only [settle, Prod.mk.injEq, Pull.failed.injEq]
    constructor
    · rintro ⟨rfl, h⟩
      exact ⟨w₁, ⟨rfl, rfl⟩, h⟩
    · rintro ⟨_, ⟨rfl, rfl⟩, h⟩
      exact ⟨rfl, h⟩

/-! ## Raw producers -/

theorem readRecordAt_ne_finished {time : Instant} :
    (readRecordAt s w key name window time).1 ≠ .finished := by
  unfold readRecordAt
  split
  · nofun
  · split
    · nofun
    · dsimp only
      split <;> nofun

theorem readNext_eq_item : readNext s w key name window = (.item g, w') ↔
    ∃ time next, (Cursor.mk window (w.slot key).position).advance = .record time next ∧
      readRecordAt s (w.modify key fun slot => { slot with position := next.current }) key name
        window time = (.item g, w') := by
  unfold readNext
  cases (Cursor.mk window (w.slot key).position).advance <;> simp [and_assoc]

theorem readNext_eq_finished : readNext s w key name window = (.finished, w') ↔
    (Cursor.mk window (w.slot key).position).advance = .exhausted ∧ w = w' := by
  unfold readNext
  cases (Cursor.mk window (w.slot key).position).advance with
  | record time next =>
    simp only [reduceCtorEq, false_and, iff_false]
    exact fun h => readRecordAt_ne_finished (congrArg Prod.fst h)
  | exhausted => simp
  | outOfCalendar => simp

theorem readNext_eq_failed : readNext s w key name window = (.failed f, w') ↔
    ((Cursor.mk window (w.slot key).position).advance = .outOfCalendar ∧
      .outOfCalendar = f ∧ w = w') ∨
    ∃ time next, (Cursor.mk window (w.slot key).position).advance = .record time next ∧
      readRecordAt s (w.modify key fun slot => { slot with position := next.current }) key name
        window time = (.failed f, w') := by
  unfold readNext
  cases (Cursor.mk window (w.slot key).position).advance <;> simp [and_assoc]

/-- A producer that answers otherwise than with a failure had not failed before. -/
theorem failure_of_pull (h : ∀ f, (p.pull s w).1 ≠ .failed f) : (w.slot p.key).failure = none := by
  cases hf : (w.slot p.key).failure with
  | none => rfl
  | some f =>
    rw [pull_of_failed hf] at h
    exact absurd rfl (h _)

theorem pull_raw_eq_item : (raw key name window).pull s w = (.item g, w') ↔
    (w.slot key).failure = none ∧
      readNext s (w.record (.pulled key)) key name window = (.item g, w') := by
  constructor
  · intro h
    have hf : (w.slot key).failure = none :=
      failure_of_pull (p := raw key name window) (s := s) (by simp [h])
    rw [pull_raw hf, settle_eq_item] at h
    exact ⟨hf, h⟩
  · rintro ⟨hf, h⟩
    rw [pull_raw hf, settle_eq_item, h]

theorem pull_raw_eq_finished : (raw key name window).pull s w = (.finished, w') ↔
    (w.slot key).failure = none ∧
      (Cursor.mk window (w.slot key).position).advance = .exhausted ∧
      close (w.record (.pulled key)) (raw key name window) = w' := by
  constructor
  · intro h
    have hf : (w.slot key).failure = none :=
      failure_of_pull (p := raw key name window) (s := s) (by simp [h])
    rw [pull_raw hf, settle_eq_finished] at h
    obtain ⟨w₁, hr, hw⟩ := h
    obtain ⟨ha, rfl⟩ := readNext_eq_finished.1 hr
    exact ⟨hf, ha, hw⟩
  · rintro ⟨hf, ha, hw⟩
    rw [pull_raw hf, settle_eq_finished]
    exact ⟨_, readNext_eq_finished.2 ⟨ha, rfl⟩, hw⟩

/-! ## Several producers -/

theorem pullAll_cons_eq_item : pullAll s w (p :: ps) = (.item gs, w') ↔
    ∃ g gs' w₁, p.pull s w = (.item g, w₁) ∧ pullAll s w₁ ps = (.item gs', w') ∧
      g :: gs' = gs := by
  rw [pullAll]
  rcases p.pull s w with ⟨g | _ | _, w₁⟩
  · dsimp only
    cases hr : pullAll s w₁ ps with
    | mk r w₂ => cases r <;> simp [hr, and_assoc, and_comm]
  · simp
  · simp

theorem pullAll_cons_eq_finished : pullAll s w (p :: ps) = (.finished, w') ↔
    p.pull s w = (.finished, w') ∨
      ∃ g w₁, p.pull s w = (.item g, w₁) ∧ pullAll s w₁ ps = (.finished, w') := by
  rw [pullAll]
  rcases p.pull s w with ⟨g | _ | _, w₁⟩
  · dsimp only
    cases hr : pullAll s w₁ ps with
    | mk r w₂ => cases r <;> simp [hr, and_assoc]
  · simp
  · simp

theorem pullAll_cons_eq_failed : pullAll s w (p :: ps) = (.failed f, w') ↔
    p.pull s w = (.failed f, w') ∨
      ∃ g w₁, p.pull s w = (.item g, w₁) ∧ pullAll s w₁ ps = (.failed f, w') := by
  rw [pullAll]
  rcases p.pull s w with ⟨g | _ | _, w₁⟩
  · dsimp only
    cases hr : pullAll s w₁ ps with
    | mk r w₂ => cases r <;> simp [hr, and_assoc]
  · simp
  · simp

/-! ## Combined producers -/

theorem derive_ne_finished {time : Option Instant} {inputs : List Value} :
    (derive w key title rule time inputs gs).1 ≠ .finished := by
  unfold derive
  dsimp only
  split
  · nofun
  · split <;> nofun

theorem conclude_eq_item {r : Pull (List Grid) × World} :
    conclude key title rule first others r = (.item g, w') ↔
      ∃ gs w₁, r = (.item gs, w₁) ∧ derive w₁ key title rule (first.timestamp w₁)
        ((first :: others).map Producer.name) gs = (.item g, w') := by
  obtain ⟨_ | _ | _, w₁⟩ := r <;> simp [conclude, and_assoc]

theorem conclude_eq_finished {r : Pull (List Grid) × World} :
    conclude key title rule first others r = (.finished, w') ↔ r = (.finished, w') := by
  obtain ⟨gs | _ | _, w₁⟩ := r
  · simp only [conclude, Prod.mk.injEq, reduceCtorEq, false_and, iff_false]
    exact fun h => derive_ne_finished (congrArg Prod.fst h)
  · simp [conclude]
  · simp [conclude]

theorem conclude_eq_failed {r : Pull (List Grid) × World} :
    conclude key title rule first others r = (.failed f, w') ↔ r = (.failed f, w') ∨
      ∃ gs w₁, r = (.item gs, w₁) ∧ derive w₁ key title rule (first.timestamp w₁)
        ((first :: others).map Producer.name) gs = (.failed f, w') := by
  obtain ⟨_ | _ | _, w₁⟩ := r <;> simp [conclude, and_assoc]

theorem pull_combined_eq_item : (combined key title rule first others).pull s w = (.item g, w') ↔
    (w.slot key).failure = none ∧ ∃ gs w₁,
      pullAll s (w.record (.pulled key)) (first :: others) = (.item gs, w₁) ∧
      derive w₁ key title rule (first.timestamp w₁) ((first :: others).map Producer.name) gs =
        (.item g, w') := by
  constructor
  · intro h
    have hf : (w.slot key).failure = none :=
      failure_of_pull (p := combined key title rule first others) (s := s) (by simp [h])
    rw [pull_combined hf, settle_eq_item, conclude_eq_item] at h
    exact ⟨hf, h⟩
  · rintro ⟨hf, h⟩
    rwa [pull_combined hf, settle_eq_item, conclude_eq_item]

theorem pull_combined_eq_finished :
    (combined key title rule first others).pull s w = (.finished, w') ↔
      (w.slot key).failure = none ∧ ∃ w₁,
        pullAll s (w.record (.pulled key)) (first :: others) = (.finished, w₁) ∧
        close w₁ (combined key title rule first others) = w' := by
  constructor
  · intro h
    have hf : (w.slot key).failure = none :=
      failure_of_pull (p := combined key title rule first others) (s := s) (by simp [h])
    simp only [pull_combined hf, settle_eq_finished, conclude_eq_finished] at h
    exact ⟨hf, h⟩
  · rintro ⟨hf, h⟩
    simpa only [pull_combined hf, settle_eq_finished, conclude_eq_finished] using h

end GridStream.Producer
