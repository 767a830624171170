import GridStream.ModelRun
import GridStream.Proofs.Config.Acceptance
import GridStream.Proofs.Window.Files

/-!
# Making a run

A run can be made from settings just if the template has the mark of a date, both ends of the window
are dates, both intervals are durations that fit each other, and no species group has the name of a
quantity. The run has all of these as they were given (`ModelRun.make?_iff`).
-/

namespace GridStream

theorem checkTemplate_text {s : String} :
    checkTemplate (.text s) = .ok () ↔ Text.contains dateMark s = true := by
  have hempty : Text.contains dateMark "" = false := rfl
  have htrue : (Value.text s).isTrue = (s != "") := rfl
  unfold checkTemplate
  rw [htrue]
  by_cases hs : s = ""
  · rw [hs, hempty]
    simp [bind, Except.bind]
  · cases hc : Text.contains dateMark s <;> simp [hs, hc, hasDateMark, bind, Except.bind]

namespace Window

variable {start stop : Instant} {record file : Span} {w : Window}

theorem make?_eq_ok : make? start stop record file = .ok w ↔
    w.start = start ∧ w.stop = stop ∧ w.record = record ∧ w.file = file := by
  constructor
  · intro h
    unfold make? at h
    split at h
    · split at h
      · split at h
        · split at h
          · cases h
            exact ⟨rfl, rfl, rfl, rfl⟩
          · cases h
        · cases h
      · cases h
    · cases h
  · rintro ⟨rfl, rfl, rfl, rfl⟩
    exact w.make?_self

end Window

namespace ModelRun

variable {settings : RunSettings} {run : ModelRun}

theorem make?_iff : make? settings = .ok run ↔
    checkTemplate settings.template = .ok () ∧
      parseDate "start date" settings.start = .ok run.window.start ∧
      parseDate "end date" settings.stop = .ok run.window.stop ∧
      parseDuration "record interval" settings.record = .ok run.window.record ∧
      parseDuration "file interval" settings.file = .ok run.window.file ∧
      (∀ name ∈ settings.groups.names, Catalog.find? name = none) ∧
      run.template = settings.template ∧
      run.groups = Catalog.defaultGroups.update settings.groups := by
  unfold make?
  simp only [Attempt.bind_eq_ok]
  constructor
  · rintro ⟨⟨⟩, ht, start, hstart, stop, hstop, record, hrecord, file, hfile, h⟩
    split at h
    · cases h
    · next hreserved =>
      obtain ⟨w, hw, h⟩ := Attempt.bind_eq_ok.1 h
      cases h
      obtain ⟨rfl, rfl, rfl, rfl⟩ := Window.make?_eq_ok.1 hw
      exact ⟨ht, hstart, hstop, hrecord, hfile,
        Catalog.reserved_eq_nil.1 (Decidable.not_not.1 hreserved), rfl, rfl⟩
  · rintro ⟨ht, hstart, hstop, hrecord, hfile, hreserved, htemplate, hgroups⟩
    refine ⟨(), ht, _, hstart, _, hstop, _, hrecord, _, hfile, ?_⟩
    rw [if_neg (not_not_intro (Catalog.reserved_eq_nil.2 hreserved))]
    refine Attempt.bind_eq_ok.2 ⟨_, run.window.make?_self, ?_⟩
    rw [← htemplate, ← hgroups]

end ModelRun

end GridStream
