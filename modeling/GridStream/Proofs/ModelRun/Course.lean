import GridStream.Proofs.ModelRun.ErrorContract
import GridStream.Proofs.ModelRun.Extension
import GridStream.Proofs.Producer.Sought

/-!
# The course of a run

What becomes of a producer of a run that is pulled from the start of the window on: which times its
grids have, which files it seeks, where its leaves stand, and that it ends behind the last record
of the window. Once it is closed, all files are returned.
-/

namespace GridStream.ModelRun
open Producer

variable {run : ModelRun} {s : Source} {v w : World} {p : Producer} {a : Accessor}
  {gs : List Grid} {k : Nat} {l : Leaf} {u : Instant}

/-- The grids of a run have the times of its window. -/
theorem time_eq (h : run.Created v p.nodes w) :
    p.time w k = (Cursor.atStart run.window).recordTime? k := by
  rw [time, h.leaf _ p.firstLeaf_mem_leaves]

theorem steady_of_created (h : run.Created v p.nodes w)
    (hc : (Cursor.atStart run.window).InCalendar) : Steady s p.nodes w :=
  h.fresh.steady fun l hl => by rwa [h.leaf l hl]

theorem lt_recordCount : (k : Int) < run.recordCount ↔
    ((Cursor.atStart run.window).recordTime? k).isSome :=
  Cursor.lt_remaining

/-! ## Files -/

/-- Pulls that give grids seek files that cover one of so many records. -/
theorem sought_of_pulls (h : run.Created v p.nodes w) (hv : w.trace = [])
    (hp : (p.pulls s gs.length w).1 = gs.map .item)
    (hu : u ∈ (p.pulls s gs.length w).2.sought) :
    ∃ k < gs.length, ∃ t, (Cursor.atStart run.window).recordTime? k = some t ∧
      run.window.fileStart? t = some u := by
  rcases sought_pulls h.fresh.nodup h.fresh.placed hp hu with ⟨l, hl, k, hk, t, ht, hf⟩ | hu
  · rw [h.leaf l hl] at ht
    rw [window_of_created h hl] at hf
    exact ⟨k, hk, t, ht, hf⟩
  · rw [World.sought, hv] at hu
    cases hu

/-- The pull behind them seeks no files but those that cover the next record. -/
theorem sought_of_next (h : run.Created v p.nodes w) (hv : w.trace = [])
    (hp : (p.pulls s gs.length w).1 = gs.map .item)
    (hu : u ∈ (p.pulls s (gs.length + 1) w).2.sought) :
    ∃ k < gs.length + 1, ∃ t, (Cursor.atStart run.window).recordTime? k = some t ∧
      run.window.fileStart? t = some u := by
  rw [snd_pulls_succ] at hu
  rcases sought_pull h.fresh.nodup hu with ⟨l, hl, t, ht, hf⟩ | hu
  · rw [recordTime?_of_pulls h hp hl] at ht
    rw [window_cursor h hl] at hf
    exact ⟨gs.length, Nat.lt_succ_self _, t, ht, hf⟩
  · obtain ⟨k, hk, hr⟩ := sought_of_pulls h hv hp hu
    exact ⟨k, Nat.lt_succ_of_lt hk, hr⟩

/-- A producer that was asked for in a world without files returns all files when it is closed. -/
theorem returned_of_close (hv : v.Untouched) (hp : run.access v a = .ok (p, w)) (n : Nat) :
    p.AllReturned (close (p.pulls s n w).2 p) := by
  have h := (access_created hp).fresh
  have hplaced : ∀ k ∈ p.leafKeys, w.HasSlot k := fun k hk =>
    h.placed k (p.leafKeys_subset_keys hk)
  have howned := (owned_calls hplaced ((untouched_access hv hp).owned _)
    (List.replicate n (.pull s) ++ [.close])).1
  rw [calls_concat, ← snd_pulls] at howned
  exact allReturned_of_handle howned fun k hk => handle_close hk

/-! ## The end of the window -/

/-- After as many grids as the window has records, no leaf has a record left. -/
theorem exhausted_of_count (h : run.Created v p.nodes w)
    (hp : (p.pulls s gs.length w).1 = gs.map .item) (hk : run.recordCount ≤ gs.length)
    (hl : l ∈ p.leaves) : (l.cursor (p.pulls s gs.length w).2).exhausted := by
  have hnone : (l.cursor (p.pulls s gs.length w).2).recordTime? 0 = none := by
    rw [recordTime?_of_pulls h hp hl, Cursor.recordTime?_eq_none]
    exact hk
  exact Cursor.advance_eq_exhausted (Cursor.advance_of_none hnone)

/-- The pull behind the last record of the window says that it is exhausted. -/
theorem finished_of_count (h : run.Created v p.nodes w)
    (hp : (p.pulls s gs.length w).1 = gs.map .item) (hk : run.recordCount ≤ gs.length) :
    (p.pull s (p.pulls s gs.length w).2).1 = .finished :=
  finished_of_exhausted (position_of_pulls h.fresh.nodup h.fresh.placed h.fresh.failure hp).1
    (exhausted_of_count h hp hk p.firstLeaf_mem_leaves)

/-- After some grids, every leaf stands that many records behind the start. -/
theorem current_of_pulls (h : run.Created v p.nodes w)
    (hp : (p.pulls s gs.length w).1 = gs.map .item) (hl : l ∈ p.leaves) :
    ((l.cursor (p.pulls s gs.length w).2).current.micros : Int) =
      run.window.start.micros + gs.length * run.window.record.micros := by
  have hpos := (position_of_pulls h.fresh.nodup h.fresh.placed h.fresh.failure hp).2 l hl
  rwa [h.leaf l hl, window_of_created h hl] at hpos

/-- The pull that says that the window is exhausted moves no leaf. -/
theorem current_of_finished (h : run.Created v p.nodes w)
    (hp : (p.pulls s gs.length w).1 = gs.map .item) (hk : run.recordCount ≤ gs.length)
    (hl : l ∈ p.leaves) :
    ((l.cursor (p.pulls s (gs.length + 1) w).2).current.micros : Int) =
      run.window.start.micros + gs.length * run.window.record.micros := by
  have hkept : Cursor.Kept fun c => c.exhausted ∧ (c.current.micros : Int) =
      run.window.start.micros + gs.length * run.window.record.micros := fun ha hc =>
    absurd hc.1 (Cursor.advance_eq_record ha).1
  rw [snd_pulls_succ]
  exact (kept_pull hkept h.fresh.nodup hl
    ⟨exhausted_of_count h hp hk hl, current_of_pulls h hp hl⟩).2

end GridStream.ModelRun
