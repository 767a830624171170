import GridStream.Proofs.Producer.Exhaustion

/-!
# Which files are sought

A pull asks for no file, and opens none, but those that cover the next record of a leaf
(`Producer.sought_pull`), so pulls that give grids seek only files that cover one of so many records
(`Producer.sought_pulls`). A producer that gives a grid notes the time of the record at which its
first leaf stood (`Producer.timestamp_of_item`).
-/

namespace GridStream

/-- The start of the file that is asked for or opened. -/
def Event.sought? : Event → Option Instant
  | .requested start | .opened _ start => some start
  | _ => none

/-- Whether a file covers the next record. -/
def Cursor.Seeks (c : Cursor) (start : Instant) : Prop :=
  ∃ t, c.recordTime? 0 = some t ∧ c.window.fileStart? t = some start

namespace World

/-- The starts of the files that were asked for or opened, the last one first. -/
def sought (w : World) : List Instant := w.trace.filterMap Event.sought?

variable {s : Source} {w : World} {key : Nat} {start u : Instant}

@[simp] theorem sought_record_of_none {e : Event} (h : e.sought? = none) :
    (w.record e).sought = w.sought := by
  simp [sought, h]

@[simp] theorem sought_modify {f : Slot → Slot} : (w.modify key f).sought = w.sought := rfl

@[simp] theorem sought_announce {m : String} : (w.announce m).sought = w.sought :=
  sought_record_of_none (e := .announced m) rfl

@[simp] theorem sought_release : (w.release key).sought = w.sought := by
  unfold release
  split
  · rfl
  · exact sought_record_of_none rfl

theorem sought_openFile (h : u ∈ (w.openFile s start).2.sought) : u = start ∨ u ∈ w.sought := by
  unfold openFile at h
  dsimp only at h
  split at h
  · exact List.mem_cons.1 h
  · rcases List.mem_cons.1 h with h | h
    · exact .inl h
    · exact List.mem_cons.1 h

@[simp] theorem sought_readHeld {name : String} {index : Int} :
    (w.readHeld key name index).2.sought = w.sought := by
  unfold readHeld
  split
  · rfl
  · exact sought_record_of_none rfl

end World

namespace Producer

variable {s : Source} {w w' : World} {key n : Nat} {name : String} {window : Window}
  {p : Producer} {ps : List Producer} {l : Leaf} {start time u : Instant} {g : Grid}
  {gs : List Grid}

/-! ## Reading -/

theorem sought_enter (h : u ∈ (enter s w key name start).2.sought) :
    u = start ∨ u ∈ w.sought := by
  unfold enter stepInto at h
  split at h
  · exact .inr h
  · dsimp only at h
    split at h
    · exact .inr (by simpa using h)
    · next path _ =>
      have ho : u ∈ (((w.release key).announce s!"Reading {name} from {path}").openFile s
          start).2.sought → u = start ∨ u ∈ w.sought := fun h =>
        (World.sought_openFile h).imp_right fun h => by simpa using h
      split at h
      · next heq =>
        rw [heq] at ho
        exact ho h
      · next heq =>
        rw [heq] at ho
        exact ho h

theorem sought_readRecordAt
    (h : u ∈ (readRecordAt s w key name window time).2.sought) :
    window.fileStart? time = some u ∨ u ∈ w.sought := by
  unfold readRecordAt at h
  split at h
  · exact .inr h
  · next start hstart =>
    have he : ∀ u ∈ (enter s w key name start).2.sought, window.fileStart? time = some u ∨
        u ∈ w.sought := fun u hu => (sought_enter hu).imp_left fun (e : u = start) => e ▸ hstart
    split at h
    · next heq =>
      rw [heq] at he
      exact he u h
    · next w₁ heq =>
      rw [heq] at he
      have hr : (w₁.readHeld key name (window.recordIndex time)).2.sought = w₁.sought :=
        World.sought_readHeld
      dsimp only at h
      split at h
      · next heq =>
        rw [heq] at hr
        exact he u (hr ▸ h)
      · next heq =>
        rw [heq] at hr
        exact he u (hr ▸ h)

theorem sought_readNext (h : u ∈ (readNext s w key name window).2.sought) :
    (Cursor.mk window (w.slot key).position).Seeks u ∨ u ∈ w.sought := by
  unfold readNext at h
  split at h
  · exact .inr h
  · exact .inr h
  · next time next ha =>
    refine (sought_readRecordAt h).imp_left fun hu => ⟨time, ?_, hu⟩
    exact Cursor.recordTime?_zero.2 ⟨(Cursor.advance_eq_record ha).1, Cursor.time_of_advance ha⟩

/-! ## Pulling -/

private theorem sought_close_aux : (∀ (p : Producer) w, (close w p).sought = w.sought) ∧
    ∀ (ps : List Producer) w, (closeAll w ps).sought = w.sought := by
  refine forest_induction ?raw ?combined ?nil ?cons
  case raw =>
    intro key name window w
    rw [close, World.sought_release]
  case combined =>
    intro key name rule first others ih w
    rw [close, ← ih w, closeAll]
  case nil =>
    intro w
    rw [closeAll]
  case cons =>
    intro p ps ihp ihps w
    rw [closeAll, ihps, ihp]

theorem sought_close : (close w p).sought = w.sought :=
  sought_close_aux.1 p w

theorem sought_settle {r : Pull Grid × World} : (settle p r).2.sought = r.2.sought := by
  obtain ⟨_ | _ | f, w⟩ := r
  · rfl
  · exact sought_close
  · exact sought_close

section
variable {title : Value} {rule : Rule} {first : Producer} {others : List Producer}

theorem sought_derive {timestamp : Option Instant} {inputs : List Value} :
    (derive w key title rule timestamp inputs gs).2.sought = w.sought := by
  unfold derive
  dsimp only
  split
  · rfl
  · split <;> exact World.sought_record_of_none rfl

theorem sought_conclude {r : Pull (List Grid) × World} :
    (conclude key title rule first others r).2.sought = r.2.sought := by
  obtain ⟨gs | _ | _, w₁⟩ := r
  · exact sought_derive
  · rfl
  · rfl

end

private theorem sought_pull_aux (u : Instant) :
    (∀ (p : Producer), p.keys.Nodup → ∀ w, u ∈ (p.pull s w).2.sought →
      (∃ l ∈ p.leaves, (l.cursor w).Seeks u) ∨ u ∈ w.sought) ∧
    ∀ (ps : List Producer), (keysAll ps).Nodup → ∀ w, u ∈ (pullAll s w ps).2.sought →
      (∃ l ∈ leavesAll ps, (l.cursor w).Seeks u) ∨ u ∈ w.sought := by
  refine forest_induction ?raw ?combined ?nil ?cons
  case raw =>
    intro key name window _ w h
    cases hf : (w.slot key).failure with
    | some f =>
      rw [pull_of_failed (p := raw key name window) hf] at h
      exact .inr h
    | none =>
      rw [pull_raw hf, sought_settle] at h
      exact (sought_readNext h).imp_left fun ha => ⟨⟨key, name, window⟩, by simp, ha⟩
  case combined =>
    intro key title rule first others ih hn w h
    rw [keys_combined, List.nodup_cons] at hn
    cases hf : (w.slot key).failure with
    | some f =>
      rw [pull_of_failed (p := combined key title rule first others) hf] at h
      exact .inr h
    | none =>
      rw [pull_combined hf, sought_settle, sought_conclude] at h
      rw [leaves_combined]
      exact ih hn.2 (w.record (.pulled key)) h
  case nil =>
    intro _ w h
    rw [pullAll_nil] at h
    exact .inr h
  case cons =>
    intro p ps ihp ihps hn w h
    rw [keysAll_cons, List.nodup_append] at hn
    obtain ⟨hnp, hnps, hdisjoint⟩ := hn
    -- The leaves of the producers behind the first stand where they stood.
    have hcursor : ∀ l ∈ leavesAll ps, l.cursor (p.pull s w).2 = l.cursor w := fun l hl =>
      cursor_pull_of_not_mem fun hk => hdisjoint _ hk _ (key_mem_of_leafAll hl) rfl
    have hp : u ∈ (p.pull s w).2.sought →
        (∃ l ∈ leavesAll (p :: ps), (l.cursor w).Seeks u) ∨ u ∈ w.sought := fun h =>
      (ihp hnp w h).imp_left fun ⟨l, hl, ha⟩ => ⟨l, by simp [hl], ha⟩
    rw [pullAll] at h
    rcases hr : p.pull s w with ⟨g | _ | f, w₁⟩
    · rw [hr] at hp hcursor
      simp only [hr] at h
      have h : u ∈ (pullAll s w₁ ps).2.sought := by
        rcases hrs : pullAll s w₁ ps with ⟨_ | _ | _, w₂⟩ <;> simpa only [hrs] using h
      rcases ihps hnps w₁ h with ⟨l, hl, ha⟩ | h
      · rw [hcursor l hl] at ha
        exact .inl ⟨l, by simp [hl], ha⟩
      · exact hp h
    · rw [hr] at hp
      simp only [hr] at h
      exact hp h
    · rw [hr] at hp
      simp only [hr] at h
      exact hp h

/-- A pull asks for a file only if it covers the next record of a leaf. -/
theorem sought_pull (hn : p.keys.Nodup) (h : u ∈ (p.pull s w).2.sought) :
    (∃ l ∈ p.leaves, (l.cursor w).Seeks u) ∨ u ∈ w.sought :=
  (sought_pull_aux u).1 p hn w h

/-! ## Pulls that give grids -/

/-- A pull that gives a grid leaves the records behind the next one ahead. -/
theorem shifted_of_item (hn : p.keys.Nodup) (hs : p.Placed w) (h : p.pull s w = (.item g, w')) :
    p.Shifted 1 w w' := fun l hl k => by
  obtain ⟨t, ha⟩ := advance_of_item hn hs h hl
  obtain ⟨-, hwindow, hnext⟩ := Cursor.advance_eq_record ha
  exact Cursor.recordTime?_next hwindow hnext

theorem pulls_cons_eq_items : (p.pulls s (gs.length + 1) w).1 = (g :: gs).map .item ↔
    ∃ w₁, p.pull s w = (.item g, w₁) ∧ (p.pulls s gs.length w₁).1 = gs.map .item := by
  rw [pulls]
  cases hp : p.pull s w with
  | mk r w₁ => simp

theorem pulls_concat_items (hgs : (p.pulls s gs.length w).1 = gs.map .item)
    (hg : (p.pull s (p.pulls s gs.length w).2).1 = .item g) :
    (p.pulls s (gs ++ [g]).length w).1 = (gs ++ [g]).map .item := by
  rw [List.length_append, List.length_singleton, pulls_concat, hgs, hg, List.map_append]
  rfl

/-- The grids that pulls give are those of the tree. -/
theorem eval_of_items (h : Steady s p.nodes w) (hp : (p.pulls s gs.length w).1 = gs.map .item) :
    ∀ k (hk : k < gs.length), p.eval s w k = .ok gs[k] := by
  induction gs generalizing w with
  | nil => exact nofun
  | cons g gs ih =>
    obtain ⟨w₁, hg, hgs⟩ := pulls_cons_eq_items.1 hp
    have hanswer : answer (p.eval s w 0) = .item g := by rw [← pull_of_eval h, hg]
    have heval := answer_eq_item.1 hanswer
    obtain ⟨w', hp', h', hshift⟩ := pull_of_ok h heval
    cases hg.symm.trans hp'
    intro k hk
    cases k with
    | zero => exact heval
    | succ k =>
      rw [← hshift.eval, ih h' hgs k (Nat.lt_of_succ_lt_succ hk), List.getElem_cons_succ]

/-- Pulls that give grids ask for files only that cover one of so many records. -/
theorem sought_pulls (hn : p.keys.Nodup) (hs : p.Placed w)
    (hp : (p.pulls s gs.length w).1 = gs.map .item)
    (h : u ∈ (p.pulls s gs.length w).2.sought) :
    (∃ l ∈ p.leaves, ∃ k < gs.length, ∃ t, (l.cursor w).recordTime? k = some t ∧
      l.window.fileStart? t = some u) ∨ u ∈ w.sought := by
  induction gs generalizing w with
  | nil => exact .inr h
  | cons g gs ih =>
    obtain ⟨w₁, hg, hgs⟩ := pulls_cons_eq_items.1 hp
    have m := p.pull_moves (s := s) (w := w)
    have hpull := sought_pull (s := s) (w := w) (u := u) hn
    rw [hg] at m hpull
    rw [List.length_cons, pulls, hg] at h
    rcases ih (fun k hk => m.hasSlot (hs k hk)) hgs h with ⟨l, hl, k, hk, t, ht, hu⟩ | h
    · rw [shifted_of_item hn hs hg l hl] at ht
      exact .inl ⟨l, hl, k + 1, Nat.succ_lt_succ hk, t, ht, hu⟩
    · rcases hpull h with ⟨l, hl, t, ht, hu⟩ | h
      · exact .inl ⟨l, hl, 0, Nat.succ_pos _, t, ht, hu⟩
      · exact .inr h

/-! ## Times of grids -/

theorem timestamp_of_readRecordAt (hs : w.HasSlot key)
    (h : readRecordAt s w key name window time = (.item g, w')) :
    (w'.slot key).timestamp = some time := by
  unfold readRecordAt at h
  split at h
  · cases h
  · next start _ =>
    have me : Moves s.Gives [key] [key] [] w (enter s w key name start).2 :=
      enter_moves name start (List.mem_singleton_self key)
    split at h
    · cases h
    · next w₁ he =>
      rw [he] at me
      have mr : Moves s.Gives [key] [key] [] w₁
          (w₁.readHeld key name (window.recordIndex time)).2 := readHeld_moves ..
      dsimp only at h
      split at h
      · cases h
      · next w₂ hr =>
        rw [hr] at mr
        cases h
        rw [World.slot_modify_self (mr.hasSlot (me.hasSlot hs))]

theorem timestamp_of_derive {title : Value} {rule : Rule} {timestamp : Option Instant}
    {inputs : List Value} (hs : w.HasSlot key)
    (h : derive w key title rule timestamp inputs gs = (.item g, w')) :
    (w'.slot key).timestamp = timestamp := by
  have ht : ((w.modify key fun slot => { slot with timestamp := timestamp }).slot key).timestamp =
      timestamp := by rw [World.slot_modify_self hs]
  unfold derive at h
  dsimp only at h
  split at h
  · cases h
  · split at h
    · cases h
    · cases h
      exact ht

private theorem timestamp_of_item_aux :
    (∀ (p : Producer), p.keys.Nodup → ∀ (w w' : World) (g : Grid), p.Placed w →
      p.pull s w = (.item g, w') → p.timestamp w' = p.time w 0) ∧
    ∀ (ps : List Producer), (keysAll ps).Nodup → ∀ (w w' : World) (gs : List Grid),
      (∀ k ∈ keysAll ps, w.HasSlot k) → pullAll s w ps = (.item gs, w') →
        ∀ p ∈ ps.head?, p.timestamp w' = p.time w 0 := by
  refine forest_induction ?raw ?combined ?nil ?cons
  case raw =>
    intro key name window _ w w' g hs h
    obtain ⟨time, next, ha, hr⟩ := readNext_eq_item.1 (pull_raw_eq_item.1 h).2
    have hs : (w.record (.pulled key)).HasSlot key := hs key (by simp)
    refine (timestamp_of_readRecordAt (World.hasSlot_modify.2 hs) hr).trans (Eq.symm ?_)
    exact Cursor.recordTime?_zero.2 ⟨(Cursor.advance_eq_record ha).1, Cursor.time_of_advance ha⟩
  case combined =>
    intro key title rule first others ih hn w w' g hs h
    obtain ⟨-, gs, w₁, hgs, hd⟩ := pull_combined_eq_item.1 h
    have m := pullAll_moves (s := s) (w := w.record (.pulled key)) (first :: others)
    rw [hgs] at m
    rw [keys_combined, List.nodup_cons] at hn
    rw [Placed, keys_combined, List.forall_mem_cons] at hs
    refine (timestamp_of_derive (m.hasSlot hs.1) hd).trans ?_
    exact ih hn.2 (w.record (.pulled key)) w₁ gs hs.2 hgs first rfl
  case nil =>
    intro _ w w' gs _ _ p hp
    cases hp
  case cons =>
    intro p ps ihp _ hn w w' gs hs h q hq
    obtain rfl : p = q := by simpa using hq
    rw [keysAll_cons, List.nodup_append] at hn
    obtain ⟨hnp, -, hdisjoint⟩ := hn
    obtain ⟨g, gs', w₁, hp, hps, -⟩ := pullAll_cons_eq_item.1 h
    -- What is pulled behind the first producer leaves its slot alone.
    have hslot : (pullAll s w₁ ps).2.slot p.key = w₁.slot p.key :=
      slot_pullAll_of_not_mem fun hk => hdisjoint _ p.key_mem_keys _ hk rfl
    rw [hps] at hslot
    rw [timestamp, hslot]
    exact ihp hnp w w₁ g (fun k hk => hs k (by simp [hk])) hp

/-- A grid has the time of the record that the first leaf stood at. -/
theorem timestamp_of_item (hn : p.keys.Nodup) (hs : p.Placed w)
    (h : p.pull s w = (.item g, w')) : p.timestamp w' = p.time w 0 :=
  timestamp_of_item_aux.1 p hn w w' g hs h

/-- A producer that gives a grid had a record left. -/
theorem isSome_time_of_item (hn : p.keys.Nodup) (hs : p.Placed w)
    (h : p.pull s w = (.item g, w')) : (p.time w 0).isSome := by
  obtain ⟨t, ha⟩ := advance_of_item hn hs h p.firstLeaf_mem_leaves
  exact Option.isSome_of_eq_some
    (Cursor.recordTime?_zero.2 ⟨(Cursor.advance_eq_record ha).1, Cursor.time_of_advance ha⟩)

end Producer

end GridStream
