import GridStream.Proofs.Command.Summary
import GridStream.Proofs.Config.Refusal

/-!
# Summaries that return

A summary with an accepted configuration returns an exit code, whatever fails, unless it is one of
those that `Command.Uncaught` tells apart: in these, a failure of another kind goes on to the
caller. This is so whatever the configuration comes from
(`Command.summarizeConfigured_returns_iff`), and in particular for every one that is loaded
(`Command.returns_iff`). Failures of the family and unknown names are reported
(`Command.returns_fail`), a run that cannot be made is one of them unless its template is bytes
(`Configuration.escapes_run`), and a pull fails with something else only where the calendar ends or
a file has no name (`ModelRun.foreign_iff_of_pulls`).

A window in a time zone is none that a configuration has (`Configuration.not_inZone`): there is no
account of what comes of loading one (`Configuration.Beyond`).
-/

namespace GridStream.Command
open Producer

variable {s : Surroundings} {files : FolderTree} {r : SummaryRequest} {c : Configuration}
  {run : ModelRun} {log : Log} {limit : Option Int} {p : Producer} {w : World} {q : Progression}
  {src : Source} {n : Nat} {gs : List Grid} {f : Failure} {quantity : String} {pattern : Value}

/-! ## Failures that are reported -/

/-- What ends with an exit code. -/
def Returns (ending : Except Failure Nat) : Prop := ending = .ok 0 ∨ ending = .ok 1

/-- The failures that a summary reports by itself. -/
def Reported (f : Failure) : Prop := ¬ f.Foreign ∨ f.kind = .foreign "KeyError"

@[simp] theorem returns_ok_zero : Returns (.ok 0) := .inl rfl

@[simp] theorem not_returns_error : ¬ Returns (.error f) := by
  simp [Returns]

theorem returns_fail : Returns (q.fail quantity f).2 ↔ Reported f := by
  by_cases hkey : f.kind = .foreign "KeyError"
  · rw [fail_of_noKey hkey]
    exact iff_of_true (.inr rfl) (.inr hkey)
  · by_cases hf : f.Foreign
    · rw [fail_of_foreign hf hkey]
      exact iff_of_false not_returns_error (not_or.2 ⟨not_not_intro hf, hkey⟩)
    · rw [fail_of_family hf]
      exact iff_of_true (.inr rfl) (.inl hf)

theorem returns_of_plan_error (h : plan c r { world := {}, log } = .error f) :
    Returns (summarizeWith c r log).2 ↔ Reported f := by
  rw [summarizeWith, h]
  exact returns_fail

theorem returns_of_plan {plan' : Plan} {failure? : Option Failure}
    (hplan : plan c r { world := {}, log } = .ok (plan', w))
    (hr : summarizeRecords plan'.source plan'.producer r.quantity plan'.pulls { world := w, log } =
      (q, failure?)) :
    Returns (summarizeWith c r log).2 ↔ ∀ f ∈ failure?, Reported f := by
  rw [summarizeWith_eq hplan hr]
  cases failure? with
  | none => simp
  | some f => simpa using returns_fail

/-! ## Plans that fail -/

theorem plan_of_run (hrun : c.run = .error f) : plan c r { world := {}, log } = .error f := by
  simp only [plan, hrun, bind, Except.bind]

theorem plan_of_producer (hrun : c.run = .ok run) (hlimit : limitOf? r.maxRecords = .ok limit)
    (hp : run.producer (startWorld c) (.text r.quantity) = .error f) :
    plan c r { world := {}, log } = .error f := by
  have hp' : run.producer { ({} : World) with
      progress := { ({} : World).progress with sink := c.defaultSink } } (.text r.quantity) =
    .error f := hp
  simp only [plan, hrun, hlimit, bind, Except.bind, hp']

/-- A run that cannot be made is reported, unless its template is bytes. -/
theorem returns_iff_of_run (hrun : c.run = .error f) : Returns (summarizeWith c r log).2 ↔
    ¬ ∃ settings data, c.runSettings = .ok settings ∧ settings.template = .bytes data := by
  rw [returns_of_plan_error (plan_of_run hrun)]
  by_cases hbytes : ∃ settings data, c.runSettings = .ok settings ∧ settings.template = .bytes data
  · obtain ⟨settings, data, hs, hdata⟩ := hbytes
    cases hrun.symm.trans (Configuration.run_of_bytes hs hdata)
    refine iff_of_false ?_ (not_not_intro ⟨settings, data, hs, hdata⟩)
    simp [Reported, Failure.Foreign, Failure.wrongType, FailureKind.isForeign]
  · have hkind : f.kind = .configuration := by
      by_contra hne
      exact hbytes (c.escapes_run.1 ⟨f, hrun, hne⟩)
    refine iff_of_true (.inl ?_) hbytes
    simp [Failure.Foreign, hkind, FailureKind.isForeign]

theorem mapM_text?_eq_none {names : List Value} {v : Value} (h : v ∈ names)
    (hv : ∀ name, v ≠ .text name) : names.mapM Value.text? = none := by
  rw [← Option.not_isSome_iff_eq_none, Attempt.isSome_mapM_iff]
  intro hall
  have hsome := hall v h
  cases v <;> first | exact absurd rfl (hv _) | cases hsome

/-- An unknown quantity is reported together with the known ones, as long as these are texts. -/
theorem returns_iff_of_unknown (hrun : c.run = .ok run)
    (hlimit : limitOf? r.maxRecords = .ok limit)
    (hunknown : .text r.quantity ∉ Catalog.allNames run.groups) :
    Returns (summarizeWith c r log).2 ↔ ∀ e ∈ run.groups, ∃ name, e.1 = .text name := by
  cases Configuration.lookup_of_run hrun r.quantity with
  | group _ hmem => exact absurd hmem hunknown
  | quantity _ hmem => exact absurd hmem hunknown
  | unknown _ hget hfind =>
    by_cases htext : ∀ e ∈ run.groups, ∃ name, e.1 = .text name
    · obtain ⟨f, hp, hkind⟩ := ModelRun.noKey_producer (w := startWorld c) htext hget hfind
      rw [returns_of_plan_error (plan_of_producer hrun hlimit hp)]
      exact iff_of_true (.inr hkind) htext
    · obtain ⟨e, he, hno⟩ : ∃ e ∈ run.groups, ∀ name, e.1 ≠ .text name := by
        simpa using htext
      have hnone : run.groups.names.mapM Value.text? = none :=
        mapM_text?_eq_none (List.mem_map_of_mem he) hno
      have hp : run.producer (startWorld c) (.text r.quantity) =
          .error (.wrongType "names of different types have no order") := by
        rw [ModelRun.producer, checkKey_text, hget, hfind, hnone]
        rfl
      rw [returns_of_plan_error (plan_of_producer hrun hlimit hp)]
      refine iff_of_false ?_ htext
      simp [Reported, Failure.Foreign, Failure.wrongType, FailureKind.isForeign]

/-! ## Pulls that cannot be summarized -/

/-- Among so many pulls is one that ends a summary with a failure that it does not report. -/
inductive Stuck (run : ModelRun) (pattern : Value) (src : Source) (p : Producer) (w : World)
    (n : Nat) : Prop
  /-- A grid without cells. -/
  | empty {gs : List Grid} {g : Grid} (before : gs.length < n)
    (items : (p.pulls src gs.length w).1 = gs.map .item) (cells : ∀ g ∈ gs, g.cells ≠ #[])
    (next : (p.pull src (p.pulls src gs.length w).2).1 = .item g) (empty : g.cells = #[])
  /-- The last record before the calendar ends, or one whose file has no name. -/
  | record {gs : List Grid} {t : Instant} (before : gs.length < n)
    (items : (p.pulls src gs.length w).1 = gs.map .item) (cells : ∀ g ∈ gs, g.cells ≠ #[])
    (time : (Cursor.atStart run.window).recordTime? gs.length = some t)
    (cut : t.shift? run.window.record.micros = none ∨ ¬ run.Expandable pattern)

/-- Grids with cells come first, and are either all or followed by something else. -/
theorem exists_break (src : Source) (p : Producer) (w : World) (n : Nat) :
    ∃ gs : List Grid, gs.length ≤ n ∧ (p.pulls src gs.length w).1 = gs.map .item ∧
      (∀ g ∈ gs, g.cells ≠ #[]) ∧ (gs.length < n →
        ∀ g, (p.pull src (p.pulls src gs.length w).2).1 = .item g → g.cells = #[]) := by
  induction n with
  | zero => exact ⟨[], Nat.le_refl _, rfl, by simp, nofun⟩
  | succ n ih =>
    obtain ⟨gs, hle, hgs, hcells, hnext⟩ := ih
    by_cases hlast : ∃ g, (p.pull src (p.pulls src gs.length w).2).1 = .item g ∧ g.cells ≠ #[]
    · obtain ⟨g, hg, hne⟩ := hlast
      obtain rfl : gs.length = n := by
        by_contra hlt
        exact hne (hnext (by omega) g hg)
      refine ⟨gs ++ [g], by simp, pulls_concat_items hgs hg, ?_, fun h => absurd h (by simp)⟩
      simpa [or_imp, forall_and] using ⟨hcells, hne⟩
    · exact ⟨gs, by omega, hgs, hcells, fun _ g hg => by_contra fun hne => hlast ⟨g, hg, hne⟩⟩

/-- A pull that fails behind some grids is reported unless it should give the last record before the
calendar ends, or one whose file has no name. -/
theorem reported_iff_of_pulls (h : run.Created (startWorld c) p.nodes w)
    (hs : src.describe = expandedPath run.template pattern)
    (hgs : (p.pulls src gs.length w).1 = gs.map .item)
    (hf : (p.pull src (p.pulls src gs.length w).2).1 = .failed f) : Reported f ↔
      ¬ ∃ t, (Cursor.atStart run.window).recordTime? gs.length = some t ∧
        (t.shift? run.window.record.micros = none ∨ ¬ run.Expandable pattern) := by
  -- A missing key is wrapped where a file is read, so that no pull fails with it.
  have hkey : f.Foreign → f.kind ≠ .foreign "KeyError" := fun hforeign => by
    rw [snd_pulls] at hf
    rcases ModelRun.foreign_of_calls h hs _ hf hforeign with ⟨hno | hno, -⟩ | ⟨rfl, -⟩
    · simp [hno]
    · simp [hno]
    · simp [Failure.outOfCalendar, Failure.outOfRange]
  rw [← ModelRun.foreign_iff_of_pulls h hs hgs]
  constructor
  · rintro (hno | hno) ⟨f', hf', hforeign⟩
    · cases hf.symm.trans hf'
      exact hno hforeign
    · cases hf.symm.trans hf'
      exact hkey hforeign hno
  · exact fun hno => .inl fun hforeign => hno ⟨f, hf, hforeign⟩

section
variable (hrun : c.run = .ok run) (hlimit : limitOf? r.maxRecords = .ok limit)
  (hp : run.producer (startWorld c) (.text r.quantity) = .ok (p, w))
  (hn : pullCount run.recordCount limit = .ok n)

include hrun hlimit hp hn

/-- What becomes of a summary behind some grids that it has shown: the end of the window, a failure,
or a grid without cells. -/
theorem returns_behind (hlt : gs.length < n)
    (hgs : (p.pulls (filesOf c run log) gs.length w).1 = gs.map .item)
    (hcells : ∀ g ∈ gs, g.cells ≠ #[]) :
    let next := (p.pull (filesOf c run log) (p.pulls (filesOf c run log) gs.length w).2).1
    (next = .finished → Returns (summarizeWith c r log).2) ∧
      (∀ f, next = .failed f → (Returns (summarizeWith c r log).2 ↔ Reported f)) ∧
      ∀ g, next = .item g → g.cells = #[] → ¬ Returns (summarizeWith c r log).2 := by
  have hc := ModelRun.producer_created hp
  obtain ⟨k, rfl⟩ : ∃ k, n = gs.length + (k + 1) := ⟨n - gs.length - 1, by omega⟩
  have hplan := plan_eq log hrun hlimit hp
  rw [hn] at hplan
  obtain ⟨q, -, -, -, -, -, -, hfinished, hfailed, hempty⟩ :=
    summarizeRecords_last r.quantity k hc.fresh.nodup hc.fresh.placed (at_start log hp) hgs hcells
  refine ⟨fun h => ?_, fun f h => ?_, fun g h hg => ?_⟩
  · exact (returns_of_plan hplan (hfinished h)).2 (by simp)
  · simpa using returns_of_plan hplan (hfailed f h)
  · rw [returns_of_plan hplan (hempty g h hg)]
    simp [Reported, Failure.Foreign, Failure.badValue, FailureKind.isForeign]

/-- A summary that has got its producer returns unless it gets stuck. -/
theorem returns_iff_not_stuck : Returns (summarizeWith c r log).2 ↔
    ¬ Stuck run c.datePattern (filesOf c run log) p w n := by
  have hc := ModelRun.producer_created hp
  have hs : (filesOf c run log).describe = expandedPath run.template c.datePattern := rfl
  constructor
  · intro hret hstuck
    cases hstuck with
    | empty before items cells next empty =>
      exact (returns_behind hrun hlimit hp hn before items cells).2.2 _ next empty hret
    | record before items cells time cut =>
      obtain ⟨f, hf, -⟩ := (ModelRun.foreign_iff_of_pulls hc hs items).2 ⟨_, time, cut⟩
      have hreported := ((returns_behind hrun hlimit hp hn before items cells).2.1 f hf).1 hret
      exact (reported_iff_of_pulls hc hs items hf).1 hreported ⟨_, time, cut⟩
  · intro hno
    -- The first answer that is no grid with cells decides, if there is one among the pulls.
    obtain ⟨gs, hle, hgs, hcells, hnext⟩ := exists_break (filesOf c run log) p w n
    rcases Nat.lt_or_eq_of_le hle with hlt | rfl
    · obtain ⟨hfinished, hfailed, -⟩ := returns_behind hrun hlimit hp hn hlt hgs hcells
      cases h : (p.pull (filesOf c run log) (p.pulls (filesOf c run log) gs.length w).2).1 with
      | finished => exact hfinished h
      | item g => exact absurd (.empty hlt hgs hcells h (hnext hlt g h)) hno
      | failed f =>
        refine (hfailed f h).2 ((reported_iff_of_pulls hc hs hgs h).2 fun ⟨t, ht, hcut⟩ => ?_)
        exact hno (.record hlt hgs hcells ht hcut)
    · have hplan := plan_eq log hrun hlimit hp
      rw [hn] at hplan
      obtain ⟨q, -, -, -, -, -, -, hrecords⟩ :=
        summarizeRecords_run r.quantity 0 hc.fresh.nodup hc.fresh.placed (at_start log hp) hgs
          hcells
      exact (returns_of_plan hplan hrecords).2 (by simp)

end

/-- A summary whose failure goes on to the caller. -/
inductive Uncaught (files : FolderTree) (r : SummaryRequest) (c : Configuration)
    (limit : Option Int) : Prop
  /-- No log level is set. -/
  | level (missing : Configuration.fieldOf c.processing "log_level" = none)
  /-- The log cannot be set up. -/
  | log {level : Value} {log : Log} {f : Failure}
    (set : Configuration.fieldOf c.processing "log_level" = some level)
    (setup : Log.setup { files } level
      ((Configuration.fieldOf c.processing "log_file").getD .null) true = (log, some f))
  /-- The template is bytes, which cannot be searched for the mark of a date. -/
  | template {log : Log} {settings : RunSettings} {data : List UInt8} (ready : Ready files c log)
    (given : c.runSettings = .ok settings) (bytes : settings.template = .bytes data)
  /-- The quantity is unknown, and the known ones cannot be listed: a group has no text as its
  name. -/
  | name {log : Log} {run : ModelRun} {e : Value × SpeciesGroup} (ready : Ready files c log)
    (made : c.run = .ok run) (unknown : .text r.quantity ∉ Catalog.allNames run.groups)
    (mem : e ∈ run.groups) (no_text : ∀ name, e.1 ≠ .text name)
  /-- The limit is negative, or too large. -/
  | limit {log : Log} {run : ModelRun} {n : Int} (ready : Ready files c log)
    (made : c.run = .ok run) (known : .text r.quantity ∈ Catalog.allNames run.groups)
    (set : limit = some n) (range : n < 0 ∨ Int.pow 2 63 ≤ n)
  /-- One of the records cannot be summarized. -/
  | record {log : Log} {run : ModelRun} {p : Producer} {w : World} {n : Nat}
    (ready : Ready files c log) (made : c.run = .ok run)
    (producer : run.producer (startWorld c) (.text r.quantity) = .ok (p, w))
    (pulls : pullCount run.recordCount limit = .ok n)
    (stuck : Stuck run c.datePattern (filesOf c run log) p w n)

theorem returns_iff_of_ready (h : Ready files c log) :
    Returns (summarizeConfigured files c r).ending ↔ Returns (summarizeWith c r log).2 := by
  rw [summarizeConfigured_of_ready h]

section
variable (hlimit : limitOf? r.maxRecords = .ok limit)

include hlimit

theorem not_returns_of_uncaught (h : Uncaught files r c limit) :
    ¬ Returns (summarizeConfigured files c r).ending := by
  cases h with
  | level missing => simp [summarizeConfigured, missing]
  | log set setup => simp [summarizeConfigured, set, setup]
  | template ready given bytes =>
    rw [returns_iff_of_ready ready, returns_iff_of_run (Configuration.run_of_bytes given bytes)]
    exact not_not_intro ⟨_, _, given, bytes⟩
  | name ready made unknown mem no_text =>
    rw [returns_iff_of_ready ready, returns_iff_of_unknown made hlimit unknown]
    exact fun h => (h _ mem).elim no_text
  | limit ready made known set range =>
    obtain ⟨p, w, hp⟩ := ModelRun.exists_producer (Configuration.lookup_of_run made r.quantity)
      (startWorld c) known
    rw [returns_iff_of_ready ready, summarizeWith_of_limit _ made (set ▸ hlimit) hp range]
    exact not_returns_error
  | record ready made producer pulls stuck =>
    rw [returns_iff_of_ready ready, returns_iff_not_stuck made hlimit producer pulls]
    exact not_not_intro stuck

theorem returns_of_not_uncaught (h : ¬ Uncaught files r c limit) :
    Returns (summarizeConfigured files c r).ending := by
  obtain ⟨level, hlevel⟩ : ∃ level, Configuration.fieldOf c.processing "log_level" = some level :=
    Option.ne_none_iff_exists'.1 fun hnone => h (.level hnone)
  obtain ⟨log, hlog⟩ : ∃ log, Log.setup { files } level
      ((Configuration.fieldOf c.processing "log_file").getD .null) true = (log, none) := by
    cases hlog : Log.setup { files } level
      ((Configuration.fieldOf c.processing "log_file").getD .null) true with
    | mk log failure? =>
      cases failure? with
      | none => exact ⟨log, rfl⟩
      | some f => exact absurd (.log hlevel hlog) h
  have hready : Ready files c log := ⟨level, hlevel, hlog⟩
  rw [returns_iff_of_ready hready]
  cases hrun : c.run with
  | error f =>
    exact (returns_iff_of_run hrun).2 fun ⟨_, _, given, bytes⟩ => h (.template hready given bytes)
  | ok run =>
    by_cases hmem : .text r.quantity ∈ Catalog.allNames run.groups
    · obtain ⟨p, w, hp⟩ := ModelRun.exists_producer
        (Configuration.lookup_of_run hrun r.quantity) (startWorld c) hmem
      have hrange : ∀ m ∈ limit, 0 ≤ m ∧ m < Int.pow 2 63 := fun m hm => by
        by_contra hout
        exact h (.limit hready hrun hmem hm (by omega))
      obtain ⟨n, hn⟩ : ∃ n, pullCount run.recordCount limit = .ok n :=
        (pullCount_eq_ok run.recordCount hrange).elim (⟨_, ·⟩) (⟨_, ·.1⟩)
      rw [returns_iff_not_stuck hrun hlimit hp hn]
      exact fun hstuck => h (.record hready hrun hp hn hstuck)
    · rw [returns_iff_of_unknown hrun hlimit hmem]
      by_contra hno
      obtain ⟨e, he, hno⟩ : ∃ e ∈ run.groups, ∀ name, e.1 ≠ .text name := by simpa using hno
      exact h (.name hready hrun hmem he hno)

end

/-- All failures are reported where the log can be set up, the limit is in range, the template is
not bytes, the names of the species groups are texts, files have names, the calendar does not cut
the window off, and no grid is without cells. -/
theorem not_uncaught (hready : Ready files c log) (hrange : ∀ m ∈ limit, 0 ≤ m ∧ m < Int.pow 2 63)
    (htemplate : ∀ settings data, c.runSettings = .ok settings → settings.template ≠ .bytes data)
    (htext : ∀ run, c.run = .ok run → ∀ e ∈ run.groups, ∃ name, e.1 = .text name)
    (hrun : ∀ run, c.run = .ok run → run.Expandable c.datePattern ∧
      (run.window.stop.shift? run.window.record.micros).isSome)
    (hcells : ∀ run p w, c.run = .ok run →
      run.producer (startWorld c) (.text r.quantity) = .ok (p, w) →
        ∀ k g, p.eval (filesOf c run log) w k = .ok g → g.cells ≠ #[]) :
    ¬ Uncaught files r c limit := by
  obtain ⟨level, hlevel, hlog⟩ := hready
  have hunique : ∀ {log'}, Ready files c log' → log' = log := fun ⟨level', hlevel', hlog'⟩ => by
    cases hlevel.symm.trans hlevel'
    exact congrArg Prod.fst (hlog'.symm.trans hlog)
  intro h
  cases h with
  | level missing => cases hlevel.symm.trans missing
  | log set setup =>
    cases hlevel.symm.trans set
    cases hlog.symm.trans setup
  | template ready given bytes => exact htemplate _ _ given bytes
  | name ready made unknown mem no_text => exact (htext _ made _ mem).elim no_text
  | limit ready made known set range =>
    have hm := hrange _ set
    omega
  | @record _ run p w _ ready made producer _ stuck =>
    obtain rfl := hunique ready
    have hc := ModelRun.producer_created producer
    obtain ⟨hexpandable, hstop⟩ := hrun run made
    have hin : (Cursor.atStart run.window).InCalendar := Cursor.inCalendar_of_stop hstop
    cases stuck with
    | record before items cells time cut =>
      rcases cut with hcut | hno
      · have hsome := hin _ _ time
        rw [Cursor.atStart, hcut] at hsome
        cases hsome
      · exact hno hexpandable
    | @empty gs g before items cells next empty =>
      have heval := eval_of_items (ModelRun.steady_of_created hc hin)
        (pulls_concat_items items next) gs.length (by simp)
      exact hcells run p w made producer _ _ heval (by simpa using empty)

/-- Whatever a configuration comes from: a summary with it ends with 0 or 1 just if its failure does
not go on to the caller. -/
theorem summarizeConfigured_returns_iff (hlimit : limitOf? r.maxRecords = .ok limit) :
    Returns (summarizeConfigured files c r).ending ↔ ¬ Uncaught files r c limit :=
  ⟨fun hret h => not_returns_of_uncaught hlimit h hret, returns_of_not_uncaught hlimit⟩

/-- A summary with an accepted configuration ends with 0 or 1 just if its failure does not go on to
the caller, whatever reader of YAML there is, and whatever the quantity, the limit and the files
are. -/
theorem returns_iff (hload : s.load r.config (.map r.overrides) = .ok c)
    (hlimit : limitOf? r.maxRecords = .ok limit) :
    (summarize s r).ending = .ok 0 ∨ (summarize s r).ending = .ok 1 ↔
      ¬ Uncaught s.files r c limit := by
  rw [summarize_of_load hload]
  exact summarizeConfigured_returns_iff hlimit

/-- The only grid of the day is that of its file. -/
theorem eq_dayGrid {k : Nat} {g : Grid} (h : (dayRun.read w "PBLH").1.eval
    (filesOf dayConfiguration dayRun dayLog) (dayRun.read w "PBLH").2 k = .ok g) :
    g = dayGrid := by
  have hsome := isSome_recordTime?_of_eval h (List.mem_singleton_self _)
  rw [(created_day w).leaf _ (List.mem_singleton_self _), ← ModelRun.lt_recordCount] at hsome
  have hcount : dayRun.recordCount = 1 := by decide
  obtain rfl : k = 0 := by omega
  exact Except.ok.inj (h.symm.trans (eval_day w))

/-- Without a limit, the summary of the day ends with 0 or 1. -/
theorem returns_iff_day :
    daySurroundings.load (dayRequest .null).config (.map (dayRequest .null).overrides) =
      .ok dayConfiguration ∧
    limitOf? (dayRequest .null).maxRecords = .ok none ∧
    ¬ Uncaught daySurroundings.files (dayRequest .null) dayConfiguration none ∧
    ((summarize daySurroundings (dayRequest .null)).ending = .ok 0 ∨
      (summarize daySurroundings (dayRequest .null)).ending = .ok 1) := by
  have hrun : ∀ run, dayConfiguration.run = .ok run → run = dayRun := fun run h =>
    Except.ok.inj (h.symm.trans run_day)
  have hcaught : ¬ Uncaught daySurroundings.files (dayRequest .null) dayConfiguration none := by
    refine not_uncaught prepared_day.ready (by simp) (fun settings data hs hdata => ?_)
      (fun run h => ?_) (fun run h => ?_) fun run p w h hp k g hg => ?_
    · cases run_day.symm.trans (Configuration.run_of_bytes hs hdata)
    · rw [hrun run h]
      exact Catalog.exists_text_of_mem_defaultGroups
    · rw [hrun run h]
      exact ⟨⟨⟨_, rfl⟩, _, rfl⟩, inCalendar_day⟩
    · obtain rfl := hrun run h
      cases (producer_day _).symm.trans hp
      rw [eq_dayGrid hg]
      simp [dayGrid]
  exact ⟨load_day _, rfl, hcaught, (returns_iff (load_day _) rfl).2 hcaught⟩

/-- A negative limit is a number of records, but the summary of the day does not return with it. -/
theorem negativeLimit_escapes :
    daySurroundings.load (dayRequest (.int (-1))).config (.map (dayRequest (.int (-1))).overrides) =
      .ok dayConfiguration ∧
    (dayRequest (.int (-1))).maxRecords = .int (-1) ∧
    (summarize daySurroundings (dayRequest (.int (-1)))).ending =
      .error (.badValue "the number of records must not be negative") := by
  have hending := summarizeWith_of_limit (r := dayRequest (.int (-1))) dayLog run_day rfl
    (producer_day (startWorld dayConfiguration)) (.inl (by decide))
  exact ⟨load_day _, rfl, by
    rw [summarize_of_load (load_day _), summarizeConfigured_of_ready prepared_day.ready, hending]⟩

end GridStream.Command
