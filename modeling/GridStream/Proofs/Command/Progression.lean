import GridStream.Command.Summary
import GridStream.Proofs.Logging
import GridStream.Proofs.ModelRun.Reporting
import GridStream.Proofs.Producer.Sought

/-!
# A running summary

A summary pulls its producer, moves the progress messages to the log and writes a line for the
grid. What the pulls see is what they would see on their own: the world of a summary differs from
that of bare pulls only in the messages that were delivered (`Command.Progression.At`). One step
is described by `Command.summarizeRecords_step`, and the run over a list of grids by
`Command.summarizeRecords_run`: it writes a line for each of them, in order, and nothing else to the
main log.
-/

namespace GridStream

/-! ## Grids without cells -/

namespace Grid

theorem isSome_best? {better : Float → Float → Bool} {g : Grid} :
    (g.best? better).isSome ↔ g.cells ≠ #[] := by
  unfold best?
  split
  · next h => simpa using Array.toList_eq_nil_iff.1 h
  · next h => simpa using fun hnil => by simp [hnil] at h

/-- Only a grid without cells has no summary. -/
theorem isSome_summary? {g : Grid} : g.summary?.isSome ↔ g.cells ≠ #[] := by
  have hleast : g.least?.isSome ↔ g.cells ≠ #[] := isSome_best?
  have hgreatest : g.greatest?.isSome ↔ g.cells ≠ #[] := isSome_best?
  unfold summary?
  cases hl : g.least? with
  | none => simpa [hl] using hleast
  | some least =>
    cases hg : g.greatest? with
    | none => simpa [hg] using hgreatest
    | some greatest => simpa [hl] using hleast

end Grid

/-! ## Entries of one logger -/

/-- The entries of the main logger among some lines. -/
def mainEntries (lines : List Line) : List Entry :=
  lines.filterMap fun line => if line.1 = Log.mainName then some line.2 else none

/-- Lines that have the given entries of the main logger, in order, with progress messages in
between. -/
structure Account (lines : List Line) (main : List Entry) : Prop where
  main : mainEntries lines = main
  others : ∀ line ∈ lines, line.1 = Log.mainName ∨
    line.1 = Log.progressName ∧ line.2.level = .info

namespace Account

variable {lines lines' : List Line} {main main' : List Entry}

theorem nil : Account [] [] := ⟨rfl, by simp⟩

theorem append (h : Account lines main) (h' : Account lines' main') :
    Account (lines ++ lines') (main ++ main') where
  main := by rw [mainEntries, List.filterMap_append, ← h.main, ← h'.main]; rfl
  others := List.forall_mem_append.2 ⟨h.others, h'.others⟩

theorem of_main (main : List Entry) : Account (main.map (Log.mainName, ·)) main where
  main := by
    have hsome : (fun line : Line => if line.1 = Log.mainName then some line.2 else none) ∘
      (Log.mainName, ·) = some := funext fun _ => by simp
    rw [mainEntries, List.filterMap_map, hsome, List.filterMap_some]
  others := List.forall_mem_map.2 fun _ _ => .inl rfl

theorem of_progress {entries : List Entry} (h : ∀ e ∈ entries, e.level = .info) :
    Account (entries.map (Log.progressName, ·)) [] where
  main := by
    have hne : Log.progressName ≠ Log.mainName := by decide
    exact List.filterMap_eq_nil_iff.2 (List.forall_mem_map.2 fun _ _ => if_neg hne)
  others := List.forall_mem_map.2 fun e he => .inr ⟨rfl, h e he⟩

end Account

/-! ## Sinks of a summary -/

/-- The sinks that a configuration has by default, with no message waiting. -/
def Progress.Drained (p : Progress) : Prop :=
  p.sink = none ∨ p.sink = some (.log .info .debug [])

theorem Progress.foldl_notify_none {p : Progress} (h : p.sink = none) (messages : List String) :
    messages.foldl notify p = p := by
  induction messages with
  | nil => rfl
  | cons message messages ih =>
    rw [List.foldl_cons, show p.notify message = p by rw [notify, h], ih]

theorem Progress.foldl_notify_log {p : Progress} {seen : List Entry}
    (h : p.sink = some (.log .info .debug seen)) (messages : List String) :
    (messages.foldl notify p).sink =
      some (.log .info .debug (seen ++ messages.map (⟨.info, ·⟩))) := by
  induction messages generalizing p seen with
  | nil => simpa using h
  | cons message messages ih =>
    have hn : (p.notify message).sink = some (.log .info .debug (seen ++ [⟨.info, message⟩])) := by
      rw [notify, h]
      rfl
    rw [List.foldl_cons, ih hn, List.map_cons, List.append_assoc]
    rfl

namespace Command
open Producer

variable {s : Source} {p : Producer} {quantity : String} {v w w' : World} {q : Progression}
  {gs : List Grid} {g : Grid} {f : Failure} {n : Nat}

/-- A summary whose producers have got where they are in a world. -/
structure Progression.At (q : Progression) (w : World) : Prop where
  data : w.SameData q.world
  drained : q.world.progress.Drained

namespace Progression

/-- The messages of a step go to the log. -/
theorem At.drain (h : q.At w) (hd : w'.SameData v) (hv : q.world.Delivers v) :
    ∃ lines, ({ q with world := v } : Progression).drain.At w' ∧
      ({ q with world := v } : Progression).drain.log = q.log.writeAll lines ∧
      Account lines [] := by
  obtain ⟨es, -, hp⟩ := hv
  unfold Progression.drain
  rcases h.drained with hsink | hsink
  · rw [Progress.foldl_notify_none hsink] at hp
    simp only [hp, hsink]
    exact ⟨[], ⟨hd, .inl (hp ▸ hsink)⟩, rfl, .nil⟩
  · have hsink' := Progress.foldl_notify_log hsink (es.reverse.filterMap Event.message?)
    rw [← hp, List.nil_append] at hsink'
    simp only [hsink']
    refine ⟨_, ⟨⟨hd.slots, hd.opened, hd.trace⟩, .inr rfl⟩, Log.foldl_write .., ?_⟩
    exact .of_progress (List.forall_mem_map.2 fun _ _ => rfl)

theorem At.write (h : q.At w) (level : Level) (message : String) : (q.write level message).At w :=
  ⟨h.data, h.drained⟩

end Progression

/-! ## Steps -/

/-- What a summary does next. -/
theorem summarizeRecords_step (s : Source) (p : Producer) (quantity : String) (n : Nat)
    (h : q.At w) : ∃ q' lines, q'.At (p.pull s w).2 ∧
    q'.log = q.log.writeAll lines ∧ Account lines [] ∧
    summarizeRecords s p quantity (n + 1) q =
      match (p.pull s w).1 with
      | .finished => (q', none)
      | .failed f => (q', some f)
      | .item g =>
        match g.summary?, p.timestamp (p.pull s w).2 with
        | some summary, some time =>
          summarizeRecords s p quantity n (q'.write .info (recordLine quantity time summary))
        | none, _ => (q', some (.badValue "a grid without cells has no summary"))
        | _, none => (q', some .wrongType) := by
  obtain ⟨r, w', v, hw, hv, hd⟩ := (p.pull_sameData s h.data).1.exists_eq
  obtain ⟨-, hdelivers⟩ := p.pull_sameData s (World.SameData.refl q.world)
  rw [hv] at hdelivers
  obtain ⟨lines, hat, hlog, hlines⟩ := h.drain hd hdelivers
  refine ⟨_, lines, hw ▸ hat, hlog, hlines, ?_⟩
  have htime : p.timestamp (Progression.drain { q with world := v }).world = p.timestamp w' := by
    rw [timestamp, timestamp, hat.data.slot_eq]
  cases r with
  | finished => simp only [summarizeRecords, hw, hv]
  | failed f => simp only [summarizeRecords, hw, hv]
  | item g =>
    cases hsummary : g.summary? with
    | none => simp only [summarizeRecords, hw, hv, hsummary]
    | some summary =>
      cases hstamp : p.timestamp w' <;>
        simp only [summarizeRecords, hw, hv, htime, hsummary, hstamp]

/-! ## Runs -/

/-- The lines that a summary writes for grids: a line for each, with its time. -/
structure RecordLines (p : Producer) (w : World) (quantity : String) (gs : List Grid)
    (shown : List String) : Prop where
  length : shown.length = gs.length
  line : ∀ k (hk : k < gs.length), ∃ t summary, p.time w k = some t ∧
    gs[k].summary? = some summary ∧ shown[k]? = some (recordLine quantity t summary)

theorem RecordLines.cons {t : Instant} {summary : String} {shown : List String}
    (ht : p.time w 0 = some t) (hg : g.summary? = some summary)
    (h : RecordLines p w' quantity gs shown) (hw : p.Shifted 1 w w') :
    RecordLines p w quantity (g :: gs) (recordLine quantity t summary :: shown) where
  length := by rw [List.length_cons, List.length_cons, h.length]
  line k hk := by
    cases k with
    | zero => exact ⟨t, summary, ht, hg, rfl⟩
    | succ k =>
      obtain ⟨t', summary', ht', hg', hline⟩ := h.line k (Nat.lt_of_succ_lt_succ hk)
      have htime : p.time w' k = p.time w (k + 1) := hw _ p.firstLeaf_mem_leaves k
      exact ⟨t', summary', htime ▸ ht', hg', hline⟩

/-- A summary writes a line for each grid and goes on behind the last. -/
theorem summarizeRecords_run (quantity : String) (n : Nat) (hn : p.keys.Nodup)
    (hs : p.Placed w) (h : q.At w)
    (hp : (p.pulls s gs.length w).1 = gs.map .item) (hg : ∀ g ∈ gs, g.cells ≠ #[]) :
    ∃ q' lines shown, q'.At (p.pulls s gs.length w).2 ∧ q'.log = q.log.writeAll lines ∧
      Account lines (shown.map (⟨.info, ·⟩)) ∧ RecordLines p w quantity gs shown ∧
      summarizeRecords s p quantity (gs.length + n) q = summarizeRecords s p quantity n q' := by
  induction gs generalizing w q with
  | nil => exact ⟨q, [], [], h, rfl, .nil, ⟨rfl, nofun⟩, by rw [List.length_nil, Nat.zero_add]⟩
  | cons g gs ih =>
    rw [List.forall_mem_cons] at hg
    obtain ⟨w₁, hitem, hrest⟩ := pulls_cons_eq_items.1 hp
    obtain ⟨summary, hsummary⟩ := Option.isSome_iff_exists.1 (Grid.isSome_summary?.2 hg.1)
    obtain ⟨t, ht⟩ := Option.isSome_iff_exists.1 (isSome_time_of_item hn hs hitem)
    have hstamp : p.timestamp w₁ = some t := (timestamp_of_item hn hs hitem).trans ht
    obtain ⟨q₁, lines, hat, hlog, hlines, hstep⟩ :=
      summarizeRecords_step s p quantity (gs.length + n) h
    have m := p.pull_moves (s := s) (w := w)
    rw [hitem] at m hat hstep
    simp only [hsummary, hstamp] at hstep
    obtain ⟨q₂, lines', shown, hat', hlog', hlines', hshown, hrun⟩ :=
      ih (q := q₁.write .info (recordLine quantity t summary))
        (fun k hk => m.hasSlot (hs k hk)) (hat.write _ _) hrest hg.2
    refine ⟨q₂, lines ++ ((Log.mainName, ⟨.info, recordLine quantity t summary⟩) :: lines'),
      recordLine quantity t summary :: shown, ?_, ?_, ?_,
      hshown.cons ht hsummary (shifted_of_item hn hs hitem), ?_⟩
    · rwa [List.length_cons, pulls, hitem]
    · rw [hlog', Log.writeAll_append, Log.writeAll_cons, ← hlog]
      rfl
    · exact hlines.append
        ((Account.of_main [⟨.info, recordLine quantity t summary⟩]).append hlines')
    · rw [List.length_cons, Nat.add_right_comm, hstep, hrun]

/-- What ends a summary that goes on behind some grids: the end of the window, a failure, or a grid
without cells. -/
theorem summarizeRecords_last (quantity : String) (n : Nat) (hn : p.keys.Nodup)
    (hs : p.Placed w) (h : q.At w)
    (hp : (p.pulls s gs.length w).1 = gs.map .item) (hg : ∀ g ∈ gs, g.cells ≠ #[]) :
    ∃ q' lines shown, q'.At (p.pulls s (gs.length + 1) w).2 ∧ q'.log = q.log.writeAll lines ∧
      Account lines (shown.map (⟨.info, ·⟩)) ∧ RecordLines p w quantity gs shown ∧
      ((p.pull s (p.pulls s gs.length w).2).1 = .finished →
        summarizeRecords s p quantity (gs.length + (n + 1)) q = (q', none)) ∧
      (∀ f, (p.pull s (p.pulls s gs.length w).2).1 = .failed f →
        summarizeRecords s p quantity (gs.length + (n + 1)) q = (q', some f)) ∧
      ∀ g, (p.pull s (p.pulls s gs.length w).2).1 = .item g → g.cells = #[] →
        summarizeRecords s p quantity (gs.length + (n + 1)) q =
          (q', some (.badValue "a grid without cells has no summary")) := by
  obtain ⟨q₁, lines, shown, hat, hlog, hlines, hshown, hrun⟩ :=
    summarizeRecords_run quantity (n + 1) hn hs h hp hg
  obtain ⟨q₂, lines', hat', hlog', hlines', hstep⟩ :=
    summarizeRecords_step s p quantity n hat
  refine ⟨q₂, lines ++ lines', shown, ?_, ?_, ?_, hshown, fun hr => ?_, fun f hr => ?_,
    fun g hr hempty => ?_⟩
  · rwa [snd_pulls_succ]
  · rw [hlog', hlog, Log.writeAll_append]
  · rw [← List.append_nil (shown.map _)]
    exact hlines.append hlines'
  · rw [hrun, hstep, hr]
  · rw [hrun, hstep, hr]
  · have hnone : g.summary? = none := by
      rw [← Option.not_isSome_iff_eq_none, Grid.isSome_summary?]
      exact not_not_intro hempty
    rw [hrun, hstep, hr]
    simp only [hnone]

/-! ## Failures -/

/-- The entries that a failure of the family is logged with: a line for itself, and one for each
item of its context. -/
def failureEntries (quantity : String) (f : Failure) : List Entry :=
  ⟨.error, s!"Summarizing {quantity} failed: {f.text}"⟩ ::
    f.context.map fun item => ⟨.error, s!"  {item.1}: {item.2.toText}"⟩

theorem foldl_write (items : Context) (message : String × Value → String) (q : Progression) :
    items.foldl (fun q item => q.write .error (message item)) q =
      { q with log := q.log.writeAll (items.map fun item =>
          (Log.mainName, ⟨.error, message item⟩)) } := by
  induction items generalizing q with
  | nil => rfl
  | cons item items ih =>
    rw [List.foldl_cons, ih, List.map_cons, Log.writeAll_cons]
    rfl

/-- A failure of the family ends a summary with an exit code. -/
theorem fail_of_family (hf : ¬ f.Foreign) : q.fail quantity f =
    ({ q with log := q.log.writeAll ((failureEntries quantity f).map (Log.mainName, ·)) },
      .ok 1) := by
  have hkey : f.kind ≠ .foreign "KeyError" := fun h => hf (by rw [Failure.Foreign, h]; rfl)
  unfold Progression.fail
  rw [if_neg hkey, if_neg (show ¬ f.kind.isForeign = true from hf)]
  dsimp only
  rw [foldl_write, failureEntries, List.map_cons, List.map_map, Log.writeAll_cons]
  rfl

theorem fail_of_noKey (hf : f.kind = .foreign "KeyError") :
    q.fail quantity f = (q.write .error f.text, .ok 1) := by
  rw [Progression.fail, if_pos hf]

/-- Any other failure escapes. -/
theorem fail_of_foreign (hf : f.Foreign) (hkey : f.kind ≠ .foreign "KeyError") :
    q.fail quantity f = (q, .error f) := by
  rw [Progression.fail, if_neg hkey, if_pos (show f.kind.isForeign = true from hf)]

theorem fail_badValue {message : String} :
    q.fail quantity (.badValue message) = (q, .error (.badValue message)) :=
  fail_of_foreign (f := .badValue message) rfl (by simp [Failure.badValue])

end Command

end GridStream
