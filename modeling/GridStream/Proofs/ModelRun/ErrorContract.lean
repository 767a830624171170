import GridStream.Proofs.ModelRun.Accessor
import GridStream.Proofs.ModelRun.Places

/-!
# What a pull can fail with

Every producer of a run fails with a failure of the family as long as the path template and the date
pattern are texts and the calendar goes on for one step behind the last record of the window. In all
other cases it does not: the pull that should give the first record, or the last one, fails with a
foreign failure (`ModelRun.error_contract`).
-/

namespace GridStream.ModelRun

variable {run : ModelRun} {pattern : Value} {s : Source} {v w : World} {p : Producer}
  {a : Accessor} {f : Failure} {t : Instant}

/-- Whether the files of a run have names. -/
def Expandable (run : ModelRun) (pattern : Value) : Prop :=
  (∃ template, run.template = .text template) ∧ ∃ text, pattern = .text text

/-- The failures of making a name of values that are no texts. -/
def NoText (f : Failure) : Prop :=
  f.kind = .foreign "TypeError" ∨ f.kind = .foreign "AttributeError"

theorem NoText.foreign (h : NoText f) : f.Foreign := by
  unfold Failure.Foreign
  rcases h with h | h <;> rw [h] <;> rfl

theorem expandedPath_of_expandable (h : run.Expandable pattern) (start : Instant) :
    ∃ path, expandedPath run.template pattern start = .ok path := by
  obtain ⟨⟨template, ht⟩, text, rfl⟩ := h
  exact ⟨_, by rw [ht, expandedPath]⟩

theorem expandedPath_of_not_expandable (h : ¬ run.Expandable pattern) (start : Instant) :
    ∃ f, expandedPath run.template pattern start = .error f ∧ NoText f := by
  cases ht : run.template with
  | text template =>
    cases pattern with
    | text text => exact absurd ⟨⟨template, ht⟩, text, rfl⟩ h
    | _ => exact ⟨_, rfl, .inl rfl⟩
  | _ => exact ⟨_, rfl, .inr rfl⟩

/-! ## The producers of a run -/

theorem window_of_created (h : run.Created v p.nodes w) {l : Leaf} (hl : l ∈ p.leaves) :
    l.window = run.window :=
  congrArg Cursor.window (h.leaf l hl)

theorem window_cursor (h : run.Created v p.nodes w) {l : Leaf} (hl : l ∈ p.leaves) {w' : World} :
    (l.cursor w').window = run.window :=
  window_of_created h hl

theorem kept_start {t : Instant} : Cursor.Kept fun c => t.micros ≤ c.current.micros := by
  intro c next u ha h
  obtain ⟨-, -, hstep⟩ := Cursor.advance_eq_record ha
  have hpos := c.window.record_pos
  omega

/-- What a pull fails with outside of the family, whatever was done before. -/
theorem foreign_of_calls (h : run.Created v p.nodes w)
    (hs : s.describe = expandedPath run.template pattern) (cs : List Producer.Call)
    (hp : (p.pull s (p.calls w cs)).1 = .failed f) (hf : f.Foreign) :
    (NoText f ∧ ¬ run.Expandable pattern) ∨ f = .outOfCalendar ∧ ∃ l ∈ p.leaves,
      (l.cursor (p.calls w cs)).advance = .outOfCalendar := by
  have hstart : ∀ l ∈ p.leaves,
      l.window.start.micros ≤ (l.cursor (p.calls w cs)).current.micros := fun l hl => by
    refine Producer.kept_calls kept_start h.fresh.nodup hl ?_ cs
    rw [h.leaf l hl, window_of_created h hl]
    exact Nat.le_refl _
  refine (Producer.foreign_of_pull h.regular h.fresh.nodup hstart (Prod.fst_eq_iff.1 hp)
    hf).imp_left ?_
  rintro ⟨start, hd⟩
  rw [hs] at hd
  by_cases he : run.Expandable pattern
  · obtain ⟨path, hpath⟩ := expandedPath_of_expandable he start
    rw [hd] at hpath
    cases hpath
  · obtain ⟨f', hf', hno⟩ := expandedPath_of_not_expandable he start
    rw [hd] at hf'
    cases hf'
    exact ⟨hno, he⟩

/-- In a window that the calendar does not cut off, no leaf steps out of the calendar. -/
theorem inCalendar_calls (h : run.Created v p.nodes w)
    (hc : (Cursor.atStart run.window).InCalendar) (cs : List Producer.Call) {l : Leaf}
    (hl : l ∈ p.leaves) : (l.cursor (p.calls w cs)).advance ≠ .outOfCalendar := by
  have hin : (l.cursor (p.calls w cs)).InCalendar :=
    Producer.kept_calls Cursor.kept_inCalendar h.fresh.nodup hl (by rwa [h.leaf l hl]) cs
  intro ha
  obtain ⟨t, ht, hshift⟩ := Cursor.advance_eq_outOfCalendar.1 ha
  have hsome := hin 0 t ht
  rw [hshift] at hsome
  cases hsome

/-- Without names of files, not even the first record can be read. -/
theorem foreign_of_not_expandable (h : run.Created v p.nodes w)
    (hs : s.describe = expandedPath run.template pattern) (he : ¬ run.Expandable pattern)
    (ht : ((Cursor.atStart run.window).recordTime? 0).isSome) :
    ∃ f, (p.pull s w).1 = .failed f ∧ f.Foreign := by
  have hfresh := h.fresh
  have hcursor := h.leaf _ p.firstLeaf_mem_leaves
  have hwindow := window_of_created h p.firstLeaf_mem_leaves
  cases ha : (p.firstLeaf.cursor w).advance with
  | outOfCalendar =>
    exact ⟨_, Producer.pull_of_outOfCalendar hfresh.failure ha, rfl⟩
  | exhausted =>
    obtain ⟨t, ht⟩ := Option.isSome_iff_exists.1 ht
    rw [hcursor] at ha
    exact absurd (Cursor.advance_eq_exhausted ha) (Cursor.recordTime?_zero.1 ht).1
  | record time next =>
    have htime : time = run.window.start := by
      rw [Cursor.time_of_advance ha, hcursor]
      rfl
    obtain ⟨u, hu⟩ := Option.isSome_iff_exists.1
      (Window.isSome_fileStart? (w := run.window) (t := time) (by rw [htime]))
    obtain ⟨f, hd, hno⟩ := expandedPath_of_not_expandable he u
    refine ⟨f, Producer.pull_of_describe hfresh.failure ha (hwindow ▸ hu) ?_ (by rw [hs, hd]),
      hno.foreign⟩
    exact hfresh.fileTime _ (Producer.key_mem_of_leaf p.firstLeaf_mem_leaves)

/-- After some grids, every leaf stands at the same record of the window. -/
theorem recordTime?_of_pulls (h : run.Created v p.nodes w) {gs : List Grid}
    (hp : (p.pulls s gs.length w).1 = gs.map .item) {l : Leaf} (hl : l ∈ p.leaves) :
    (l.cursor (p.pulls s gs.length w).2).recordTime? 0 =
      (Cursor.atStart run.window).recordTime? gs.length := by
  obtain ⟨-, hpos⟩ := Producer.position_of_pulls h.fresh.nodup h.fresh.placed h.fresh.failure hp
  have hpos := hpos l hl
  rw [h.leaf l hl, window_of_created h hl] at hpos
  ext t
  simp only [Cursor.recordTime?_eq_some, hpos, window_cursor h hl]
  simp [Cursor.atStart]

/-- After some grids, the next pull fails outside of the family just if there is a record left and
either it is the last before the calendar ends or files have no names. -/
theorem foreign_iff_of_pulls (h : run.Created v p.nodes w)
    (hs : s.describe = expandedPath run.template pattern) {gs : List Grid}
    (hp : (p.pulls s gs.length w).1 = gs.map .item) :
    (∃ f, (p.pull s (p.pulls s gs.length w).2).1 = .failed f ∧ f.Foreign) ↔
      ∃ t, (Cursor.atStart run.window).recordTime? gs.length = some t ∧
        (t.shift? run.window.record.micros = none ∨ ¬ run.Expandable pattern) := by
  have hfirst := p.firstLeaf_mem_leaves
  have hrecord := recordTime?_of_pulls h hp hfirst
  obtain ⟨hunfailed, -⟩ :=
    Producer.position_of_pulls h.fresh.nodup h.fresh.placed h.fresh.failure hp
  constructor
  · rintro ⟨f, hfail, hf⟩
    -- The first leaf has a record left, or else the pull would end.
    have hne : ¬ (p.firstLeaf.cursor (p.pulls s gs.length w).2).exhausted := fun he => by
      rw [Producer.finished_of_exhausted hunfailed he] at hfail
      cases hfail
    rw [Producer.snd_pulls] at hfail
    rcases foreign_of_calls h hs _ hfail hf with ⟨-, he⟩ | ⟨-, l, hl, ha⟩
    · exact ⟨_, hrecord.symm.trans (Cursor.recordTime?_zero.2 ⟨hne, rfl⟩), .inr he⟩
    · obtain ⟨t, ht, hshift⟩ := Cursor.advance_eq_outOfCalendar.1 ha
      rw [← Producer.snd_pulls, recordTime?_of_pulls h hp hl] at ht
      exact ⟨t, ht, .inl (window_cursor h hl ▸ hshift)⟩
  · rintro ⟨t, ht, hshift | he⟩
    · have ha : (p.firstLeaf.cursor (p.pulls s gs.length w).2).advance = .outOfCalendar :=
        Cursor.advance_eq_outOfCalendar.2
          ⟨t, hrecord.trans ht, by rwa [window_cursor h hfirst]⟩
      exact ⟨_, Producer.pull_of_outOfCalendar hunfailed ha, rfl⟩
    · have hsome : ((Cursor.atStart run.window).recordTime? 0).isSome := by
        rw [← Cursor.lt_remaining]
        have hn := Cursor.lt_remaining.2 (Option.isSome_of_eq_some ht)
        omega
      obtain ⟨f, hfail, hf⟩ := foreign_of_not_expandable h hs he hsome
      cases gs with
      | nil => exact ⟨f, hfail, hf⟩
      | cons g gs =>
        have hitem : (p.pull s w).1 = .item g := by
          simp only [List.length_cons, Producer.pulls, List.map_cons, List.cons.injEq] at hp
          exact hp.1
        rw [hfail] at hitem
        cases hitem

/-! ## The contract -/

/-- For every producer that a run can be asked for, whatever the files are and whatever was done
with the producer before. Where files have names and the calendar does not cut the window off, a
pull that fails does so within the family. In general a foreign failure is that of making a name of
values that are no texts, or that of stepping out of the calendar. It does occur where it can: the
pull after some grids has a foreign failure just if it should read the record at the calendar's
end, or the first record without a name for its file. -/
theorem error_contract (h : run.access v a = .ok (p, w))
    (hs : s.describe = expandedPath run.template pattern) :
    (run.Expandable pattern → (Cursor.atStart run.window).InCalendar →
      ∀ cs f, (p.pull s (p.calls w cs)).1 = .failed f → ¬ f.Foreign) ∧
    (∀ cs f, (p.pull s (p.calls w cs)).1 = .failed f → f.Foreign →
      (NoText f ∧ ¬ run.Expandable pattern) ∨
        f = .outOfCalendar ∧ ¬ (Cursor.atStart run.window).InCalendar) ∧
    ∀ gs : List Grid, (p.pulls s gs.length w).1 = gs.map .item →
      ((∃ f, (p.pull s (p.pulls s gs.length w).2).1 = .failed f ∧ f.Foreign) ↔
        ∃ t, (Cursor.atStart run.window).recordTime? gs.length = some t ∧
          (t.shift? run.window.record.micros = none ∨ ¬ run.Expandable pattern)) := by
  have hc := access_created h
  have hforeign : ∀ cs f, (p.pull s (p.calls w cs)).1 = .failed f → f.Foreign →
      (NoText f ∧ ¬ run.Expandable pattern) ∨
        f = .outOfCalendar ∧ ¬ (Cursor.atStart run.window).InCalendar := by
    intro cs f hp hf
    refine (foreign_of_calls hc hs cs hp hf).imp_right ?_
    rintro ⟨rfl, l, hl, ha⟩
    exact ⟨rfl, fun hin => inCalendar_calls hc hin cs hl ha⟩
  refine ⟨fun he hin cs f hp hf => ?_, hforeign, fun gs hp => foreign_iff_of_pulls hc hs hp⟩
  rcases hforeign cs f hp hf with ⟨-, hno⟩ | ⟨-, hno⟩
  · exact hno he
  · exact hno hin

/-- The run for 1 January 2005 keeps to the family, even without any files. -/
theorem error_contract_sample :
    make? (sampleSettings (.hours 24)) = .ok (sampleRun (.hours 24) (by decide) (by decide)) ∧
    ∃ p w, (sampleRun (.hours 24) (by decide) (by decide)).access {} (.quantity "pblh") =
        .ok (p, w) ∧
      ∀ cs f, (p.pull (.catalogued (.text "d_[DATE].nc") (.text Pattern.dashedDate) [])
        (p.calls w cs)).1 = .failed f → ¬ f.Foreign := by
  have hin : (Cursor.atStart (sampleRun (.hours 24) (by decide) (by decide)).window).InCalendar :=
    Cursor.inCalendar_of_stop rfl
  have h : (sampleRun (.hours 24) (by decide) (by decide)).access {} (.quantity "pblh") =
      .ok (_, _) := rfl
  exact ⟨make?_sampleSettings _ _, _, _, h, (error_contract h rfl).1 ⟨⟨_, rfl⟩, _, rfl⟩ hin⟩

/-! ## The last days of the calendar -/

/-- Two days. -/
def lastDays : Span := ⟨172800000000, by decide⟩

/-- The settings for the last two days of the calendar with a record for both together. -/
def lastDaysSettings : RunSettings where
  template := .text "d_[DATE].nc"
  start := .text "99991230"
  stop := .text "99991231"
  record := .span lastDays
  file := .span lastDays

/-- The run for the last two days of the calendar. -/
def lastDaysRun : ModelRun where
  template := .text "d_[DATE].nc"
  window := {
    start := ⟨315537724800000000, by decide⟩
    stop := ⟨315537811200000000, by decide⟩
    record := lastDays
    file := lastDays
    start_le_stop := by decide
    record_pos := by decide
    record_le_file := by decide
    whole := by decide }
  groups := Catalog.defaultGroups

theorem make?_lastDaysSettings : make? lastDaysSettings = .ok lastDaysRun := by
  have hstart : parseDate "start date" (.text "99991230") = .ok lastDaysRun.window.start := by rfl
  have hstop : parseDate "end date" (.text "99991231") = .ok lastDaysRun.window.stop := by rfl
  have hrecord : parseDuration "record interval" (.span lastDays) = .ok lastDays := by rfl
  have hfile : parseDuration "file interval" (.span lastDays) = .ok lastDays := by rfl
  have hreserved : Catalog.reserved lastDaysSettings.groups.names = [] := by
    simp [lastDaysSettings, Catalog.reserved, SpeciesGroups.names]
  refine Attempt.bind_eq_ok.2 ⟨(), rfl, Attempt.bind_eq_ok.2 ⟨_, hstart, Attempt.bind_eq_ok.2
    ⟨_, hstop, Attempt.bind_eq_ok.2 ⟨_, hrecord, Attempt.bind_eq_ok.2 ⟨_, hfile, ?_⟩⟩⟩⟩⟩
  dsimp only
  rw [hreserved, if_neg (by simp)]
  exact Attempt.bind_eq_ok.2 ⟨_, lastDaysRun.window.make?_self, rfl⟩

/-- The file of the last two days. -/
def lastDaysFile : CataloguedFile where
  start := lastDaysRun.window.start
  dataset := ⟨[]⟩

/-- At the end of the calendar, the only record of the window cannot be had. -/
theorem lastDays_foreign : make? lastDaysSettings = .ok lastDaysRun ∧
    ∃ p w, lastDaysRun.access {} (.quantity "pblh") = .ok (p, w) ∧
      (p.pull (.catalogued (.text "d_[DATE].nc") (.text Pattern.dashedDate) [lastDaysFile]) w).1 =
        .failed .outOfCalendar ∧ Failure.outOfCalendar.Foreign :=
  ⟨make?_lastDaysSettings, _, _, rfl, rfl, rfl⟩

end GridStream.ModelRun
