import GridStream.Proofs.Command.Listing
import GridStream.Proofs.Command.Progression
import GridStream.Proofs.ModelRun.Course

/-!
# The records of a summary

A summary covers the records that it is asked for, and no others (`Command.Covers`), whatever its
configuration comes from (`Command.summarizeConfigured_covers`) and so with every configuration
that is loaded (`Command.summary_covers`). What it leaves behind is a `Command.Summarized`, both
where all of these records can be had (`Command.Prepared.complete`) and where one of them fails
(`Command.Prepared.stopped`).
-/

namespace GridStream

namespace Configuration

variable {c : Configuration} {run : ModelRun}

/-- A name stands for a group, a quantity or nothing, whatever the names of the groups are. -/
theorem lookup_of_run (hrun : c.run = .ok run) (s : String) : Lookup run.groups s := by
  obtain ⟨entries, gs, hgs, -, -, hreserved, hout⟩ := c.exists_entries
  obtain rfl : run.groups = gs := Except.ok.inj ((groups_of_run hrun).symm.trans hgs)
  exact .of_readable (Config.forall_name_overriddenGroups (P := fun v => Catalog.find? v = none)
      Catalog.find?_of_mem_defaultGroups hreserved hout)
    (Config.readable_overriddenGroups Catalog.readable_of_mem_defaultGroups hout) s

end Configuration

namespace ModelRun

variable {run : ModelRun} {name : String}

/-- A run can produce what is listed for it. -/
theorem exists_producer (h : Lookup run.groups name) (w : World)
    (hmem : .text name ∈ Catalog.allNames run.groups) :
    ∃ p w', run.producer w (.text name) = .ok (p, w') := by
  cases h with
  | group g _ hget _ hr =>
    obtain ⟨p, w', hp, -⟩ := run.exists_readGroup w hr.nonempty
    refine ⟨p, w', ?_⟩
    rw [producer, checkKey_text, hget]
    exact hp
  | quantity q _ hget hfind =>
    refine ⟨(run.produce w q.formula).1, (run.produce w q.formula).2, ?_⟩
    rw [producer, checkKey_text, hget, hfind]
    rfl
  | unknown hne => exact absurd hmem hne

end ModelRun

namespace Account

variable {lines : List Line} {main : List Entry} {n : Nat}

/-- Lines are as important as the least important entry of the main logger and the progress
messages. -/
theorem le_level (h : Account lines main) (hn : n ≤ Level.info.number)
    (hmain : ∀ e ∈ main, n ≤ e.level.number) : ∀ line ∈ lines, n ≤ line.2.level.number := by
  intro line hline
  rcases h.others line hline with hname | ⟨-, hlevel⟩
  · refine hmain _ (h.main ▸ List.mem_filterMap.2 ⟨line, hline, ?_⟩)
    rw [if_pos hname]
  · rw [hlevel]
    exact hn

end Account

namespace Command
open Producer

variable {s : Surroundings} {files : FolderTree} {r : SummaryRequest} {c : Configuration}
  {run : ModelRun} {log : Log} {limit : Option Int} {p : Producer} {w : World} {q : Progression}
  {src : Source} {n : Nat} {gs : List Grid} {f : Failure}

/-! ## Getting ready -/

/-- The world in which a summary makes its producer. -/
def startWorld (c : Configuration) : World := { progress := { sink := c.defaultSink } }

/-- The files of a run, as a summary finds them. -/
def filesOf (c : Configuration) (run : ModelRun) (log : Log) : Source :=
  .stored run.template c.datePattern log.files

/-- A log that is set up as a configuration says. -/
def Ready (files : FolderTree) (c : Configuration) (log : Log) : Prop :=
  ∃ level, Configuration.fieldOf c.processing "log_level" = some level ∧
    Log.setup { files } level ((Configuration.fieldOf c.processing "log_file").getD .null) true =
      (log, none)

theorem summarize_of_load (hload : s.load r.config (.map r.overrides) = .ok c) :
    summarize s r = summarizeConfigured s.files c r := by
  rw [summarize, hload]

theorem summarizeConfigured_of_ready (h : Ready files c log) : summarizeConfigured files c r =
    { ending := (summarizeWith c r log).2, printed := (summarizeWith c r log).1.log.console
      files := (summarizeWith c r log).1.log.files } := by
  obtain ⟨level, hlevel, hlog⟩ := h
  simp only [summarizeConfigured, hlevel, hlog]

/-- The log of a configuration that asks for the lines of all records. -/
def Prepared (files : FolderTree) (c : Configuration) (log : Log) : Prop :=
  ∃ level, Configuration.fieldOf c.processing "log_level" = some (.text level) ∧
    (Text.upper level = "INFO" ∨ Text.upper level = "DEBUG") ∧
    Log.setup { files } (.text level)
      ((Configuration.fieldOf c.processing "log_file").getD .null) true = (log, none)

namespace Prepared

theorem ready (h : Prepared files c log) : Ready files c log := by
  obtain ⟨level, hlevel, -, hlog⟩ := h
  exact ⟨_, hlevel, hlog⟩

theorem shows (h : Prepared files c log) : log.Shows Level.info.number ∧ log.console = [] := by
  obtain ⟨level, -, hname, hlog⟩ := h
  obtain ⟨number, hnumber, hpos, hle⟩ : ∃ number, levelNumber? level = some number ∧
      number ≠ 0 ∧ number ≤ Level.info.number := by
    unfold levelNumber?
    rcases hname with h | h <;> rw [h]
    exacts [⟨20, rfl, by decide, by decide⟩, ⟨10, rfl, by decide, by decide⟩]
  obtain ⟨hshows, hconsole⟩ := Log.shows_setup hnumber hpos hlog
  exact ⟨hshows.mono hle, hconsole⟩

end Prepared

theorem plan_eq (log : Log) (hrun : c.run = .ok run) (hlimit : limitOf? r.maxRecords = .ok limit)
    (hp : run.producer (startWorld c) (.text r.quantity) = .ok (p, w)) :
    plan c r { world := {}, log } =
      (pullCount run.recordCount limit).map fun pulls => (⟨filesOf c run log, p, pulls⟩, w) := by
  have hp' : run.producer { ({} : World) with
      progress := { ({} : World).progress with sink := c.defaultSink } } (.text r.quantity) =
    .ok (p, w) := hp
  simp only [plan, hrun, hlimit, bind, Except.bind, hp']
  cases pullCount run.recordCount limit <;> rfl

/-- A summary closes its producer whatever ends it. -/
theorem summarizeWith_eq {plan' : Plan} {failure? : Option Failure}
    (hplan : plan c r { world := {}, log } = .ok (plan', w))
    (hr : summarizeRecords plan'.source plan'.producer r.quantity plan'.pulls { world := w, log } =
      (q, failure?)) :
    summarizeWith c r log =
      match failure? with
      | some f => ({ q with world := close q.world plan'.producer } : Progression).fail r.quantity f
      | none =>
        (({ q with world := close q.world plan'.producer } : Progression).write .info
          s!"Summarized {r.quantity} successfully", .ok 0) := by
  simp only [summarizeWith, hplan, hr]
  cases failure? <;> rfl

/-- The number of records that a summary is asked for: those of the window, or fewer. -/
def askedFor (count : Int) (limit : Option Int) : Nat :=
  match limit with
  | none => count.toNat
  | some n => min count.toNat n.toNat

/-- A summary pulls once for each record that it is asked for, and once more if the limit lets it
reach the end of the window. -/
theorem pullCount_eq_ok (count : Int) (hn : ∀ n ∈ limit, 0 ≤ n ∧ n < Int.pow 2 63) :
    pullCount count limit = .ok (askedFor count limit) ∨
      pullCount count limit = .ok (askedFor count limit + 1) ∧
        askedFor count limit = count.toNat := by
  cases limit with
  | none => exact .inr ⟨rfl, rfl⟩
  | some n =>
    have hn := hn n rfl
    simp only [pullCount, askedFor, if_pos hn]
    rcases Nat.lt_or_ge count.toNat n.toNat with hlt | hle
    · rw [Nat.min_eq_right (by omega), Nat.min_eq_left (by omega)]
      exact .inr ⟨rfl, rfl⟩
    · rw [Nat.min_eq_left (by omega), Nat.min_eq_right (by omega)]
      exact .inl rfl

theorem pullCount_of_limit {count n : Int} (hn : n < 0 ∨ Int.pow 2 63 ≤ n) :
    pullCount count (some n) =
      .error (.badValue "the number of records must not be negative") := by
  rw [pullCount, if_neg (by omega)]

/-- A limit out of range makes a summary fail that has got its producer. -/
theorem summarizeWith_of_limit {m : Int} (log : Log) (hrun : c.run = .ok run)
    (hlimit : limitOf? r.maxRecords = .ok (some m))
    (hp : run.producer (startWorld c) (.text r.quantity) = .ok (p, w))
    (hm : m < 0 ∨ Int.pow 2 63 ≤ m) : (summarizeWith c r log).2 =
      .error (.badValue "the number of records must not be negative") := by
  have hplan := plan_eq log hrun hlimit hp
  rw [pullCount_of_limit hm] at hplan
  simp only [summarizeWith, hplan, Except.map, fail_badValue]

theorem at_start (log : Log) (hp : run.producer (startWorld c) (.text r.quantity) = .ok (p, w)) :
    ({ world := w, log } : Progression).At w := by
  have hc := ModelRun.producer_created hp
  refine ⟨.refl w, ?_⟩
  change w.progress.Drained
  rw [hc.grown.rest.2.2, Progress.Drained, startWorld, Configuration.defaultSink]
  split
  · exact .inr rfl
  · exact .inl rfl

theorem untouched_start : (startWorld c).Untouched :=
  ⟨rfl, rfl, fun _ => rfl, fun _ => rfl⟩

/-! ## What a summary leaves behind -/

/-- A summary that has written a line for each of some grids, with the times of the window, and
some entries after them. It has sought files that cover one of the first `asked` records, and has
returned them. -/
structure Summarized (o : Outcome) (r : SummaryRequest) (c : Configuration) (log : Log)
    (run : ModelRun) (p : Producer) (gs : List Grid) (asked code : Nat) (after : List Entry)
    (q : Progression) (lines : List Line) (shown : List String) : Prop where
  ending : summarizeWith c r log = (q, .ok code)
  outcome : o = { ending := .ok code, printed := lines.map Line.text, files := q.log.files }
  log : q.log = log.writeAll lines
  account : Account lines (shown.map (⟨.info, ·⟩) ++ after)
  length : shown.length = gs.length
  line : ∀ k (hk : k < gs.length), ∃ t summary,
    (Cursor.atStart run.window).recordTime? k = some t ∧ gs[k].summary? = some summary ∧
      shown[k]? = some (recordLine r.quantity t summary)
  sought : ∀ u ∈ q.world.sought, ∃ k < asked, ∃ t,
    (Cursor.atStart run.window).recordTime? k = some t ∧ run.window.fileStart? t = some u
  returned : p.AllReturned q.world

theorem allReturned_of_sameData {v : World} (h : v.SameData w) (hr : p.AllReturned v) :
    p.AllReturned w := by
  refine ⟨fun k hk => h.slot_eq k ▸ hr.1 k hk, fun id hid => ?_⟩
  rw [World.closes, h.trace]
  exact hr.2 id (h.opened ▸ hid)

theorem sought_of_sameData {v : World} (h : v.SameData w) : w.sought = v.sought := by
  rw [World.sought, h.trace]
  rfl

/-- What is left behind where the records were pulled up to some number, and the rest of the summary
has written some entries. -/
theorem Prepared.summarized (h : Prepared files c log)
    (hp : run.producer (startWorld c) (.text r.quantity) = .ok (p, w)) {j asked code : Nat}
    {lines : List Line} {shown : List String} {after : List Entry}
    (hat : q.At (p.pulls src j w).2) (hlog : q.log = log.writeAll lines)
    (haccount : Account lines (shown.map (⟨.info, ·⟩)))
    (hshown : RecordLines p w r.quantity gs shown)
    (hsought : ∀ u ∈ (p.pulls src j w).2.sought, ∃ k < asked, ∃ t,
      (Cursor.atStart run.window).recordTime? k = some t ∧ run.window.fileStart? t = some u)
    (hafter : ∀ e ∈ after, Level.info.number ≤ e.level.number)
    (hend : summarizeWith c r log = ({
      world := close q.world p
      log := q.log.writeAll (after.map (Log.mainName, ·)) }, .ok code)) :
    ∃ q' lines' shown',
      Summarized (summarizeConfigured files c r) r c log run p gs asked code after
        q' lines' shown' ∧
      (close (p.pulls src j w).2 p).SameData q'.world := by
  have hc := ModelRun.producer_created hp
  have hdata := (p.close_sameData hat.data).1
  have hlines : Account (lines ++ after.map (Log.mainName, ·)) (shown.map (⟨.info, ·⟩) ++ after) :=
    haccount.append (.of_main after)
  have hlevels : ∀ line ∈ lines ++ after.map (Log.mainName, ·),
      Level.info.number ≤ line.2.level.number :=
    hlines.le_level (Nat.le_refl _) (List.forall_mem_append.2
      ⟨List.forall_mem_map.2 fun _ _ => Nat.le_refl _, hafter⟩)
  obtain ⟨hshows, hconsole⟩ := h.shows
  have hprinted := Log.console_writeAll hshows hlevels
  rw [hconsole, List.nil_append, Log.writeAll_append, ← hlog] at hprinted
  refine ⟨_, _, shown, ⟨hend, ?_, by rw [Log.writeAll_append, ← hlog], hlines, hshown.length,
    fun k hk => ?_, fun u hu => ?_, allReturned_of_sameData hdata
      (ModelRun.returned_of_close untouched_start (a := .producer (.text r.quantity)) hp j)⟩, hdata⟩
  · rw [summarizeConfigured_of_ready h.ready, hend, hprinted]
  · obtain ⟨t, summary, ht, hg, hline⟩ := hshown.line k hk
    exact ⟨t, summary, ModelRun.time_eq hc ▸ ht, hg, hline⟩
  · rw [sought_of_sameData hdata, sought_close] at hu
    exact hsought u hu

/-- Where all records can be had that a summary is asked for, it writes their lines and ends
well. -/
theorem Prepared.complete (h : Prepared files c log) (hrun : c.run = .ok run)
    (hlimit : limitOf? r.maxRecords = .ok limit) (hn : ∀ n ∈ limit, 0 ≤ n ∧ n < Int.pow 2 63)
    (hp : run.producer (startWorld c) (.text r.quantity) = .ok (p, w))
    (hlength : gs.length = askedFor run.recordCount limit)
    (hgs : (p.pulls (filesOf c run log) gs.length w).1 = gs.map .item)
    (hcells : ∀ g ∈ gs, g.cells ≠ #[]) :
    ∃ q lines shown, Summarized (summarizeConfigured files c r) r c log run p gs gs.length 0
        [⟨.info, s!"Summarized {r.quantity} successfully"⟩] q lines shown ∧
      ∀ l ∈ p.leaves, ((l.cursor q.world).current.micros : Int) =
        run.window.start.micros + gs.length * run.window.record.micros := by
  have hc := ModelRun.producer_created hp
  have htrace : w.trace = [] := hc.grown.rest.2.1
  have hplan := plan_eq log hrun hlimit hp
  have hfresh := hc.fresh
  have hafter : ∀ e ∈ [(⟨.info, s!"Summarized {r.quantity} successfully"⟩ : Entry)],
      Level.info.number ≤ e.level.number := List.forall_mem_singleton.2 (Nat.le_refl _)
  have hcurrent : ∀ {v v' : World}, (close v p).SameData v' → ∀ l : Leaf,
      l.cursor v' = l.cursor v := fun hdata l => by
    rw [Leaf.cursor, hdata.slot_eq]
    exact cursor_close
  rcases pullCount_eq_ok run.recordCount hn with hcount | ⟨hcount, hall⟩
  · rw [hcount, ← hlength] at hplan
    obtain ⟨q, lines, shown, hat, hlog, haccount, hshown, hloop⟩ :=
      summarizeRecords_run r.quantity 0 hfresh.nodup hfresh.placed (at_start log hp) hgs
        hcells
    obtain ⟨q', lines', shown', hsummarized, hdata⟩ := h.summarized hp hat hlog haccount hshown
      (fun u hu => ModelRun.sought_of_pulls hc htrace hgs hu) hafter
      (summarizeWith_eq hplan hloop)
    refine ⟨q', lines', shown', hsummarized, fun l hl => ?_⟩
    rw [hcurrent hdata]
    exact ModelRun.current_of_pulls hc hgs hl
  · rw [hcount, ← hlength] at hplan
    have hend : run.recordCount ≤ gs.length := by omega
    obtain ⟨q, lines, shown, hat, hlog, haccount, hshown, hfinished, -⟩ :=
      summarizeRecords_last r.quantity 0 hfresh.nodup hfresh.placed (at_start log hp) hgs
        hcells
    have hloop := hfinished (ModelRun.finished_of_count hc hgs hend)
    -- The pull that reaches the end has no record to seek a file for.
    have hsought : ∀ u ∈ (p.pulls (filesOf c run log) (gs.length + 1) w).2.sought,
        ∃ k < gs.length, ∃ t, (Cursor.atStart run.window).recordTime? k = some t ∧
          run.window.fileStart? t = some u := fun u hu => by
      obtain ⟨k, -, t, ht, hu⟩ := ModelRun.sought_of_next hc htrace hgs hu
      have hk := ModelRun.lt_recordCount.2 (Option.isSome_of_eq_some ht)
      exact ⟨k, by omega, t, ht, hu⟩
    obtain ⟨q', lines', shown', hsummarized, hdata⟩ := h.summarized hp hat hlog haccount hshown
      hsought hafter (summarizeWith_eq hplan hloop)
    refine ⟨q', lines', shown', hsummarized, fun l hl => ?_⟩
    rw [hcurrent hdata]
    exact ModelRun.current_of_finished hc hgs hend hl

/-- The first record that fails with a failure of the family ends a summary with an exit code. -/
theorem Prepared.stopped (h : Prepared files c log) (hrun : c.run = .ok run)
    (hlimit : limitOf? r.maxRecords = .ok limit) (hn : ∀ n ∈ limit, 0 ≤ n ∧ n < Int.pow 2 63)
    (hp : run.producer (startWorld c) (.text r.quantity) = .ok (p, w))
    (hlength : gs.length < askedFor run.recordCount limit)
    (hgs : (p.pulls (filesOf c run log) gs.length w).1 = gs.map .item)
    (hcells : ∀ g ∈ gs, g.cells ≠ #[])
    (hf : (p.pull (filesOf c run log) (p.pulls (filesOf c run log) gs.length w).2).1 = .failed f)
    (hfamily : ¬ f.Foreign) :
    ∃ q lines shown, Summarized (summarizeConfigured files c r) r c log run p gs (gs.length + 1) 1
      (failureEntries r.quantity f) q lines shown := by
  have hc := ModelRun.producer_created hp
  obtain ⟨n, hcount⟩ : ∃ n, pullCount run.recordCount limit = .ok (gs.length + (n + 1)) := by
    rcases pullCount_eq_ok run.recordCount hn with hcount | ⟨hcount, -⟩
    · exact ⟨askedFor run.recordCount limit - gs.length - 1, by rw [hcount]; congr 1; omega⟩
    · exact ⟨askedFor run.recordCount limit - gs.length, by rw [hcount]; congr 1; omega⟩
  have hplan := plan_eq log hrun hlimit hp
  rw [hcount] at hplan
  have hafter : ∀ e ∈ failureEntries r.quantity f, Level.info.number ≤ e.level.number :=
    List.forall_mem_cons.2
      ⟨by simp [Level.number], List.forall_mem_map.2 fun _ _ => by simp [Level.number]⟩
  obtain ⟨q, lines, shown, hat, hlog, haccount, hshown, -, hfailed, -⟩ :=
    summarizeRecords_last r.quantity n hc.fresh.nodup hc.fresh.placed (at_start log hp)
      hgs hcells
  obtain ⟨q', lines', shown', hsummarized, -⟩ := h.summarized hp hat hlog haccount hshown
    (fun u hu => ModelRun.sought_of_next hc hc.grown.rest.2.1 hgs hu) hafter
    ((summarizeWith_eq hplan (hfailed f hf)).trans (fail_of_family hfamily))
  exact ⟨q', lines', shown', hsummarized⟩

/-- The outcome of a summary that covers the records that it is asked for, and no others. Let `m` be
the number of records of the window, or the limit if that is less. If all of the first `m` records
can be had, the main log gets their lines, in order and with the times of the window, and a last
line, and the summary ends with 0; every leaf then stands `m` records behind the start of the
window, and no files were sought but those that cover one of these records. If one of them fails
with a failure of the family, the summary ends with 1 after the lines of the records before it, a
line for the failure and one for each item of its context. In both cases all files are returned. All
this is so for limits below `2 ^ 63`; a limit beyond makes the summary fail. -/
def Covers (o : Outcome) (r : SummaryRequest) (c : Configuration) (log : Log)
    (limit : Option Int) : Prop :=
  (∀ template start stop, c.get? "input.path_template" = some (.text template) →
    c.get? "input.start_date" = some start → start ≠ .null →
    c.get? "input.end_date" = some stop → stop ≠ .null → ∃ run, c.run = .ok run) ∧
  ∀ run, c.run = .ok run → (run.window.stop.shift? run.window.record.micros).isSome →
    .text r.quantity ∈ Catalog.allNames run.groups →
    ∃ p w, run.producer (startWorld c) (.text r.quantity) = .ok (p, w) ∧
      let src := filesOf c run log
      let m := askedFor run.recordCount limit
      ((∀ n ∈ limit, n < Int.pow 2 63) →
        (∀ gs : List Grid, gs.length = m →
          (∀ k (hk : k < gs.length), p.eval src w k = .ok gs[k]) → (∀ g ∈ gs, g.cells ≠ #[]) →
          ∃ q lines shown, Summarized o r c log run p gs m 0
              [⟨.info, s!"Summarized {r.quantity} successfully"⟩] q lines shown ∧
            ∀ l ∈ p.leaves, ((l.cursor q.world).current.micros : Int) =
              run.window.start.micros + m * run.window.record.micros) ∧
        ∀ (gs : List Grid) (path : List Producer) (f : Failure), gs.length < m →
          (∀ k (hk : k < gs.length), p.eval src w k = .ok gs[k]) → (∀ g ∈ gs, g.cells ≠ #[]) →
          p.eval src w gs.length = .error ⟨path, some f⟩ → ¬ f.Foreign →
          ∃ q lines shown, Summarized o r c log run p gs (gs.length + 1) 1
            (failureEntries r.quantity f) q lines shown) ∧
      ((∃ n ∈ limit, Int.pow 2 63 ≤ n) → o.ending =
        .error (.badValue "the number of records must not be negative"))

/-- Whatever a configuration comes from: a summary with it covers the records that it is asked
for. -/
theorem summarizeConfigured_covers (h : Prepared files c log)
    (hlimit : limitOf? r.maxRecords = .ok limit) (hn : ∀ n ∈ limit, 0 ≤ n) :
    Covers (summarizeConfigured files c r) r c log limit := by
  refine ⟨fun template start stop ht hs hs' he he' => ?_, fun run hrun hcal hmem => ?_⟩
  · obtain ⟨run, hrun, -⟩ := Configuration.exists_run ht hs hs' he he'
    exact ⟨run, hrun⟩
  obtain ⟨p, w, hp⟩ :=
    ModelRun.exists_producer (Configuration.lookup_of_run hrun r.quantity) (startWorld c) hmem
  have hc := ModelRun.producer_created hp
  have hsteady := ModelRun.steady_of_created (s := filesOf c run log) hc
    (Cursor.inCalendar_of_stop hcal)
  refine ⟨p, w, hp, fun hlt => ⟨fun gs hlength hgs hcells => ?_,
    fun gs path f hlength hgs hcells he hf => ?_⟩, fun ⟨n, hmem, hle⟩ => ?_⟩
  · obtain ⟨w', hpulls, -⟩ := pulls_of_ok hsteady gs hgs
    rw [← hlength]
    exact h.complete hrun hlimit (fun n hmem => ⟨hn n hmem, hlt n hmem⟩) hp hlength
      (congrArg Prod.fst hpulls) hcells
  · obtain ⟨w', hpulls, hsteady', hshift⟩ := pulls_of_ok hsteady gs hgs
    refine h.stopped hrun hlimit (fun n hmem => ⟨hn n hmem, hlt n hmem⟩) hp hlength
      (congrArg Prod.fst hpulls) hcells ?_ hf
    have he' : p.eval (filesOf c run log) w' 0 = .error ⟨path, some f⟩ := by
      rw [hshift.eval, Nat.zero_add, he]
    rw [hpulls, pull_of_error hsteady' he']
    rfl
  · cases hmem
    rw [summarizeConfigured_of_ready h.ready]
    exact summarizeWith_of_limit log hrun hlimit hp (.inr hle)

/-- A summary with the configuration that is loaded covers the records that it is asked for. -/
theorem summary_covers (hload : s.load r.config (.map r.overrides) = .ok c)
    (h : Prepared s.files c log) (hlimit : limitOf? r.maxRecords = .ok limit)
    (hn : ∀ n ∈ limit, 0 ≤ n) : Covers (summarize s r) r c log limit := by
  rw [summarize_of_load hload]
  exact summarizeConfigured_covers h hlimit hn

/-! ## A day with a single record -/

/-- The first day of 2006, with one record for the whole day. -/
def dayInput : Mapping :=
  [(.text "path_template", .text "d_[DATE].nc"), (.text "start_date", .text "20060101"),
    (.text "end_date", .text "20060102"), (.text "record_interval", .text "24h"),
    (.text "file_interval", .text "24h"), (.text "date_format", .text "%Y-%m-%d")]

def daySettings : Mapping :=
  [(Config.inputKey, .map dayInput),
    (Config.processingKey, .map
      [(.text "log_level", .text "INFO"), (.text "log_file", .null),
        (.text "report_progress", .bool true)]),
    (Config.groupsKey, .map [])]

def dayRun : ModelRun where
  template := .text "d_[DATE].nc"
  window := {
    start := ⟨63271670400000000, by decide⟩
    stop := ⟨63271756800000000, by decide⟩
    record := .hours 24
    file := .hours 24
    start_le_stop := by decide
    record_pos := by decide
    record_le_file := by decide
    whole := by decide }
  groups := Catalog.defaultGroups

theorem dayStart (label : String) :
    parseDate label (.text "20060101") = .ok dayRun.window.start := by rfl

theorem dayStop (label : String) :
    parseDate label (.text "20060102") = .ok dayRun.window.stop := by rfl

theorem check_daySettings : Config.check daySettings = .ok () := by
  have hdates : Config.checkDates (.text "20060101") (.text "20060102") = .ok () :=
    (Config.checkDates_eq_ok (by simp) (by simp)).2
      ⟨_, _, dayStart _, dayStop _, dayRun.window.start_le_stop⟩
  have hintervals : Config.checkIntervals (.text "24h") (.text "24h") = .ok () :=
    Config.checkIntervals_eq_ok.2
      ⟨_, _, parseDuration_day, parseDuration_day, by decide, by decide⟩
  exact Config.check_eq_ok.2
    ⟨Config.checkInput_eq_ok.2 ⟨_, rfl, Config.checkTemplate_text.2 rfl, hintervals, hdates⟩, rfl,
      Config.checkGroups_eq_ok.2 ⟨[], Catalog.defaultGroups, rfl, by simp, by simp, rfl⟩⟩

def dayConfiguration : Configuration := ⟨daySettings, check_daySettings⟩

theorem run_day : dayConfiguration.run = .ok dayRun := by
  have hinput : dayConfiguration.settings.get? Config.inputKey = some (.map dayInput) := rfl
  have htemplate := Configuration.get?_of_input "input.path_template" "path_template" hinput rfl
  have hstart := Configuration.get?_of_input "input.start_date" "start_date" hinput rfl
  have hstop := Configuration.get?_of_input "input.end_date" "end_date" hinput rfl
  have hrecord := Configuration.get?_of_input "input.record_interval" "record_interval" hinput rfl
  have hfile := Configuration.get?_of_input "input.file_interval" "file_interval" hinput rfl
  obtain ⟨run, hrun, hconf⟩ := Configuration.exists_run htemplate hstart (by simp) hstop (by simp)
  have hday : dayConfiguration.Configures dayRun :=
    ⟨htemplate, ⟨_, hstart, dayStart _⟩, ⟨_, hstop, dayStop _⟩, ⟨_, hrecord, parseDuration_day⟩,
      ⟨_, hfile, parseDuration_day⟩, rfl⟩
  rw [hrun, hconf.unique hday]

theorem inCalendar_day : (dayRun.window.stop.shift? dayRun.window.record.micros).isSome := by
  rfl

theorem known_day : .text "pblh" ∈ Catalog.allNames dayRun.groups := by
  have h : "pblh" ∈ Catalog.names := by decide
  exact List.mem_append_left _ (List.mem_map_of_mem h)

theorem producer_day (w : World) :
    dayRun.producer w (.text "pblh") = .ok (dayRun.read w "PBLH") := by
  rw [ModelRun.producer, checkKey_text]
  rfl

theorem created_day (w : World) :
    dayRun.Created w (dayRun.read w "PBLH").1.nodes (dayRun.read w "PBLH").2 :=
  ModelRun.producer_created (producer_day w)

/-- A request for a summary of that day, with a limit. -/
def dayRequest (maxRecords : Value) : SummaryRequest where
  quantity := "pblh"
  config := .null
  template := .text "d_[DATE].nc"
  start := .text "20060101"
  stop := .text "20060102"
  record := .text "24h"
  file := .null
  maxRecords
  logLevel := .null
  logFile := .null

def dayFile : Dataset := ⟨[{ name := "PBLH", grid := ⟨[1, 2], #[1.0, 2.0], rfl⟩ }]⟩

def dayGrid : Grid := ⟨[2], #[1.0, 2.0], rfl⟩

/-- The file of that day, in an empty environment. -/
def daySurroundings : Surroundings where
  files := ⟨[(["d_2006-01-01.nc"], .data dayFile)]⟩

def dayLog : Log where
  level := Level.info.number
  handlers := [.console Level.info.number]
  files := daySurroundings.files

theorem load_day (maxRecords : Value) : daySurroundings.load (dayRequest maxRecords).config
    (.map (dayRequest maxRecords).overrides) = .ok dayConfiguration := by
  have hmerged : Configuration.Layers.merged
      ⟨none, [], .map (dayRequest maxRecords).overrides⟩ = .ok daySettings := by rfl
  have hchecked : Configuration.ofSettings? daySettings = .ok dayConfiguration := by
    unfold Configuration.ofSettings?
    split
    · rfl
    · next h => simp [check_daySettings] at h
  exact Attempt.bind_eq_ok.2 ⟨none, rfl, Attempt.bind_eq_ok.2 ⟨_, hmerged, hchecked⟩⟩

theorem prepared_day : Prepared daySurroundings.files dayConfiguration dayLog :=
  ⟨"INFO", rfl, .inl (by decide), rfl⟩

theorem recordAt_day : (filesOf dayConfiguration dayRun dayLog).recordAt "PBLH" dayRun.window
    dayRun.window.start = .ok dayGrid := by
  have hpath : expandedPath dayRun.template dayConfiguration.datePattern dayRun.window.start =
    .ok "d_2006-01-01.nc" := by rfl
  have hplace : FilePath.ofText "d_2006-01-01.nc" = ⟨"", ["d_2006-01-01.nc"]⟩ := by
    decide +kernel
  have hopened : (filesOf dayConfiguration dayRun dayLog).openAt dayRun.window.start =
      .ok (dayFile.opened "d_2006-01-01.nc") := by
    simp only [filesOf, Source.stored, hpath, bind, Except.bind, hplace]
    rfl
  have hstart : dayRun.window.fileStart? dayRun.window.start = some dayRun.window.start := by rfl
  simp only [Source.recordAt, hstart, Source.fileFor, hopened]
  rfl

theorem eval_day (w : World) : (dayRun.read w "PBLH").1.eval
    (filesOf dayConfiguration dayRun dayLog) (dayRun.read w "PBLH").2 0 = .ok dayGrid := by
  refine eval_raw_eq_ok.2 ⟨dayRun.window.start, ?_, recordAt_day⟩
  rw [(created_day w).leaf _ (List.mem_singleton_self _)]
  rfl

/-- Without a limit, the summary of that day covers its record. -/
theorem summary_covers_day : ∃ p w q lines shown,
    dayRun.producer (startWorld dayConfiguration) (.text "pblh") = .ok (p, w) ∧
    Summarized (summarize daySurroundings (dayRequest .null)) (dayRequest .null) dayConfiguration
      dayLog dayRun p [dayGrid] 1 0 [⟨.info, "Summarized pblh successfully"⟩] q lines shown := by
  obtain ⟨-, hcovers⟩ := summary_covers (load_day .null) prepared_day rfl (by simp)
  obtain ⟨p, w, hp, hcovers, -⟩ := hcovers dayRun run_day inCalendar_day known_day
  cases (producer_day (startWorld dayConfiguration)).symm.trans hp
  obtain ⟨q, lines, shown, hsummarized, -⟩ := (hcovers (by simp)).1 [dayGrid] rfl
    (fun k hk => by
      obtain rfl : k = 0 := by simpa using hk
      exact eval_day _)
    (by simp [dayGrid])
  exact ⟨_, _, q, lines, shown, hp, hsummarized⟩

/-- A limit of `2 ^ 63` asks for the record of that day, which is there, but the summary fails. -/
theorem hugeLimit_fails :
    daySurroundings.load (dayRequest (.int (Int.pow 2 63))).config
      (.map (dayRequest (.int (Int.pow 2 63))).overrides) = .ok dayConfiguration ∧
    Prepared daySurroundings.files dayConfiguration dayLog ∧
    dayConfiguration.run = .ok dayRun ∧
    (dayRun.window.stop.shift? dayRun.window.record.micros).isSome ∧
    .text "pblh" ∈ Catalog.allNames dayRun.groups ∧
    askedFor dayRun.recordCount (some (Int.pow 2 63)) = 1 ∧
    (∃ p w, dayRun.producer (startWorld dayConfiguration) (.text "pblh") = .ok (p, w) ∧
      p.eval (filesOf dayConfiguration dayRun dayLog) w 0 = .ok dayGrid ∧ dayGrid.cells ≠ #[]) ∧
    (summarize daySurroundings (dayRequest (.int (Int.pow 2 63)))).ending =
      .error (.badValue "the number of records must not be negative") := by
  have hp := producer_day (startWorld dayConfiguration)
  refine ⟨load_day _, prepared_day, run_day, inCalendar_day, known_day, by decide,
    ⟨_, _, hp, eval_day _, by simp [dayGrid]⟩, ?_⟩
  have hlimit : limitOf? (dayRequest (.int (Int.pow 2 63))).maxRecords =
    .ok (some (Int.pow 2 63)) := rfl
  have hending := summarizeWith_of_limit dayLog run_day hlimit hp (.inr (Int.le_refl _))
  rw [summarize_of_load (load_day _), summarizeConfigured_of_ready prepared_day.ready, hending]

end Command

end GridStream
