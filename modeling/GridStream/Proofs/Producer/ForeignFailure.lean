import GridStream.Proofs.Attempt
import GridStream.Proofs.Producer.Ending
import GridStream.Proofs.Window.Files

/-!
# Foreign failures

Opening, reading and deriving are operations, so whatever fails in them leaves them as a failure of
the family. Two things that a pull does are part of no operation: stepping on to the next record,
which fails where the calendar ends, and giving a file its name, which fails where the name cannot
be made. A pull fails with a failure outside of the family only because of one of these
(`Producer.foreign_of_pull`).
-/

namespace GridStream

/-- Whether a table can be looked up in: all its entries are numbers that a cell can hold. -/
def LookupTable.Numeric (t : LookupTable) : Prop := (t.entries.mapM TableEntry.cell?).isSome

/-- A producer that looks up codes has a single input and a table of numbers. -/
def Producer.Regular : Producer → Prop
  | .combined _ _ (.remap table) _ others => others = [] ∧ table.Numeric
  | _ => True

/-- Codes that cannot be looked up are reported as such. -/
theorem LookupTable.not_foreign_of_remap {t : LookupTable} (h : t.Numeric)
    {time : Option Instant} {g : Grid} {f : Failure} (hf : t.remap time g = .error f) :
    ¬ f.Foreign := by
  unfold remap at hf
  dsimp only at hf
  split at hf
  · cases hf
    nofun
  · split at hf
    · cases hf
      nofun
    · split at hf
      · cases hf
      · next hnone =>
        rw [Numeric, hnone] at h
        cases h

theorem not_foreign_of_checkShapes {target : Value} {names : List Value}
    {shapes : List (List Nat)} {f : Failure} (h : checkShapes target names shapes = .error f) :
    ¬ f.Foreign := by
  unfold checkShapes at h
  split at h
  · cases h
  · cases h
    nofun

theorem Rule.not_foreign_of_apply {rule : Rule} {name : Value} {time : Option Instant}
    {gs : List Grid} {f : Failure}
    (hr : ∀ table, rule = .remap table → table.Numeric ∧ gs.length = 1)
    (h : rule.apply name time gs = .error f) : ¬ f.Foreign := by
  cases rule with
  | function apply => exact Failure.not_foreign_of_within h
  | weighted weights => exact Failure.not_foreign_of_within h
  | remap table =>
    obtain ⟨hn, hlength⟩ := hr table rfl
    obtain ⟨g, rfl⟩ := List.length_eq_one_iff.1 hlength
    exact LookupTable.not_foreign_of_remap hn h

namespace Producer

variable {s : Source} {w w' : World} {key : Nat} {name : String} {window : Window}
  {start time : Instant} {f : Failure} {p : Producer} {ps : List Producer} {l : Leaf}

/-! ## Reading -/

theorem describe_of_stepInto (h : stepInto s w key name start = (.error f, w')) (hf : f.Foreign) :
    s.describe start = .error f := by
  unfold stepInto World.openFile at h
  cases hd : s.describe start with
  | error f' =>
    simp only [hd, Prod.mk.injEq, Except.error.injEq] at h
    rw [h.1]
  | ok path =>
    cases ho : s.openAt start with
    | error f' =>
      simp only [hd, ho, Prod.mk.injEq, Except.error.injEq] at h
      exact absurd hf (h.1 ▸ Failure.not_foreign_within)
    | ok file => simp [hd, ho] at h

theorem describe_of_readRecordAt (hs : window.start.micros ≤ time.micros)
    (h : readRecordAt s w key name window time = (.failed f, w')) (hf : f.Foreign) :
    ∃ start, window.fileStart? time = some start ∧ s.describe start = .error f := by
  obtain ⟨start, hstart⟩ := Option.isSome_iff_exists.1 (Window.isSome_fileStart? hs)
  refine ⟨start, hstart, ?_⟩
  unfold readRecordAt at h
  simp only [hstart] at h
  split at h
  · next he =>
    obtain ⟨rfl, rfl⟩ : _ = f ∧ _ = w' := by simpa using h
    unfold enter at he
    split at he
    · cases he
    · exact describe_of_stepInto he hf
  · split at h
    · obtain ⟨rfl, rfl⟩ : _ = f ∧ _ = w' := by simpa using h
      exact absurd hf Failure.not_foreign_within
    · cases h

/-- Reading the next record fails outside of the family only behind the calendar or where the file
has no name. -/
theorem foreign_of_readNext (hs : window.start.micros ≤ (w.slot key).position.micros)
    (h : readNext s w key name window = (.failed f, w')) (hf : f.Foreign) :
    (∃ start, s.describe start = .error f) ∨
      f = .outOfCalendar ∧
        (Cursor.mk window (w.slot key).position).advance = .outOfCalendar := by
  rcases readNext_eq_failed.1 h with ⟨ha, rfl, -⟩ | ⟨time, next, ha, hr⟩
  · exact .inr ⟨rfl, ha⟩
  · have htime : time = (w.slot key).position := Cursor.time_of_advance ha
    obtain ⟨start, -, hd⟩ := describe_of_readRecordAt (htime ▸ hs) hr hf
    exact .inl ⟨start, hd⟩

/-! ## Deriving -/

theorem not_foreign_of_derive {title : Value} {rule : Rule} {timestamp : Option Instant}
    {inputs : List Value} {gs : List Grid}
    (hr : ∀ table, rule = .remap table → table.Numeric ∧ gs.length = 1)
    (h : derive w key title rule timestamp inputs gs = (.failed f, w')) : ¬ f.Foreign := by
  unfold derive at h
  dsimp only at h
  split at h
  · next hc =>
    obtain ⟨rfl, rfl⟩ : _ = f ∧ _ = w' := by simpa using h
    exact not_foreign_of_checkShapes hc
  · split at h
    · next ha =>
      obtain ⟨rfl, rfl⟩ : _ = f ∧ _ = w' := by simpa using h
      exact Rule.not_foreign_of_apply hr ha
    · cases h

theorem length_of_pullAll {gs : List Grid} (h : pullAll s w ps = (.item gs, w')) :
    gs.length = ps.length := by
  induction ps generalizing w gs with
  | nil =>
    rw [pullAll_nil] at h
    cases h
    rfl
  | cons p ps ih =>
    obtain ⟨g, gs', w₁, -, hps, rfl⟩ := pullAll_cons_eq_item.1 h
    rw [List.length_cons, List.length_cons, ih hps]

/-! ## Pulling -/

private theorem foreign_of_pull_aux (hf : f.Foreign) :
    (∀ (p : Producer), (∀ q ∈ p.nodes, q.Regular) → p.keys.Nodup → ∀ (w w' : World),
      (∀ l ∈ p.leaves, l.window.start.micros ≤ (l.cursor w).current.micros) →
      p.pull s w = (.failed f, w') → (∃ start, s.describe start = .error f) ∨
        f = .outOfCalendar ∧ ∃ l ∈ p.leaves, (l.cursor w).advance = .outOfCalendar) ∧
    ∀ (ps : List Producer), (∀ q ∈ nodesAll ps, q.Regular) → (keysAll ps).Nodup →
      ∀ (w w' : World),
      (∀ l ∈ leavesAll ps, l.window.start.micros ≤ (l.cursor w).current.micros) →
      pullAll s w ps = (.failed f, w') → (∃ start, s.describe start = .error f) ∨
        f = .outOfCalendar ∧ ∃ l ∈ leavesAll ps, (l.cursor w).advance = .outOfCalendar := by
  refine forest_induction ?raw ?combined ?nil ?cons
  case raw =>
    intro key name window _ _ w w' hs h
    cases hfail : (w.slot key).failure with
    | some f' =>
      rw [pull_of_failed (p := raw key name window) hfail] at h
      cases h
      exact absurd hf nofun
    | none =>
      rw [pull_raw hfail] at h
      obtain ⟨w₁, hr, -⟩ := settle_eq_failed.1 h
      refine (foreign_of_readNext (w := w.record (.pulled key)) ?_ hr hf).imp_right
        fun ⟨he, hc⟩ => ⟨he, ⟨key, name, window⟩, by simp, hc⟩
      exact hs ⟨key, name, window⟩ (by simp)
  case combined =>
    intro key title rule first others ih hreg hn w w' hs h
    rw [keys_combined, List.nodup_cons] at hn
    rw [leaves_combined] at hs ⊢
    rw [nodes_combined, List.forall_mem_cons] at hreg
    cases hfail : (w.slot key).failure with
    | some f' =>
      rw [pull_of_failed (p := combined key title rule first others) hfail] at h
      cases h
      exact absurd hf nofun
    | none =>
      rw [pull_combined hfail] at h
      obtain ⟨w₁, hr, -⟩ := settle_eq_failed.1 h
      rcases conclude_eq_failed.1 hr with hi | ⟨gs, w₂, hi, hd⟩
      · exact ih hreg.2 hn.2 (w.record (.pulled key)) w₁ hs hi
      · refine absurd hf (not_foreign_of_derive (fun table htable => ?_) hd)
        subst htable
        obtain ⟨rfl, hnumeric⟩ := hreg.1
        exact ⟨hnumeric, length_of_pullAll hi⟩
  case nil =>
    intro _ _ w w' _ h
    rw [pullAll_nil] at h
    cases h
  case cons =>
    intro p ps ihp ihps hreg hn w w' hs h
    rw [nodesAll_cons, List.forall_mem_append] at hreg
    rw [keysAll_cons, List.nodup_append] at hn
    obtain ⟨hnp, hnps, hdisjoint⟩ := hn
    rw [leavesAll_cons, List.forall_mem_append] at hs
    simp only [leavesAll_cons, List.mem_append]
    rcases pullAll_cons_eq_failed.1 h with hp | ⟨g, w₁, hp, hps⟩
    · exact (ihp hreg.1 hnp w w' hs.1 hp).imp_right
        fun ⟨he, l, hl, hc⟩ => ⟨he, l, .inl hl, hc⟩
    · -- The leaves of the inputs that are left stand where they stood.
      have hcursor : ∀ l ∈ leavesAll ps, l.cursor w₁ = l.cursor w := fun l hl => by
        have hc : l.cursor (p.pull s w).2 = l.cursor w :=
          cursor_pull_of_not_mem fun hk => hdisjoint _ hk _ (key_mem_of_leafAll hl) rfl
        rwa [hp] at hc
      refine (ihps hreg.2 hnps w₁ w' (fun l hl => hcursor l hl ▸ hs.2 l hl) hps).imp_right ?_
      rintro ⟨he, l, hl, hc⟩
      exact ⟨he, l, .inr hl, hcursor l hl ▸ hc⟩

/-- A pull fails outside of the family only where a leaf steps out of the calendar or a file cannot
be given a name. -/
theorem foreign_of_pull (hr : ∀ q ∈ p.nodes, q.Regular) (hn : p.keys.Nodup)
    (hs : ∀ l ∈ p.leaves, l.window.start.micros ≤ (l.cursor w).current.micros)
    (h : p.pull s w = (.failed f, w')) (hf : f.Foreign) :
    (∃ start, s.describe start = .error f) ∨
      f = .outOfCalendar ∧ ∃ l ∈ p.leaves, (l.cursor w).advance = .outOfCalendar :=
  (foreign_of_pull_aux hf).1 p hr hn w w' hs h

/-! ## Where the first leaf fails -/

/-- Where the first leaf steps out of the calendar, this is what the pull fails with. -/
theorem pull_of_outOfCalendar (hf : p.Unfailed w)
    (h : (p.firstLeaf.cursor w).advance = .outOfCalendar) :
    (p.pull s w).1 = .failed .outOfCalendar := by
  refine pull_of_firstLeaf (e := ⟨[], some .outOfCalendar⟩) hf fun v hv => ?_
  have ha : (Cursor.mk p.firstLeaf.window (v.slot p.firstLeaf.key).position).advance =
      .outOfCalendar := by
    rw [slot_congr hv]
    exact h
  rw [readNext, ha]
  rfl

/-- Where the first leaf has to open a file without a name, this is what the pull fails with. -/
theorem pull_of_describe (hf : p.Unfailed w) {next : Cursor}
    (h : (p.firstLeaf.cursor w).advance = .record time next)
    (hs : p.firstLeaf.window.fileStart? time = some start)
    (ho : (w.slot p.firstLeaf.key).fileTime = none) (hd : s.describe start = .error f) :
    (p.pull s w).1 = .failed f := by
  refine pull_of_firstLeaf (e := ⟨[], some f⟩) hf fun v hv => ?_
  have ha : (Cursor.mk p.firstLeaf.window (v.slot p.firstLeaf.key).position).advance =
      .record time next := by
    rw [slot_congr hv]
    exact h
  have ho' : ((v.modify p.firstLeaf.key fun slot =>
      { slot with position := next.current }).slot p.firstLeaf.key).fileTime = none := by
    rw [World.slot_modify_congr Slot.fileTime rfl, slot_congr hv, ho]
  simp only [readNext, ha, readRecordAt, hs, enter, ho', reduceCtorEq, if_false, stepInto, hd]
  rfl

end Producer

end GridStream
