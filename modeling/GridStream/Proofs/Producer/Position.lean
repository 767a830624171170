import GridStream.Proofs.Producer.Answers
import GridStream.Proofs.Producer.Handles
import GridStream.Proofs.Window.Records

/-!
# Positions

The cursor of a leaf changes by steps over records and in no other way, so what every step keeps is
kept by every pull (`Producer.kept_pull`). A pull that gives a grid takes one step with each leaf of
the tree (`Producer.advance_of_item`); a pull that says that the window is exhausted does so because
some leaf has no record left (`Producer.exists_exhausted_of_finished`).
-/

namespace GridStream

/-- Whether every step over a record keeps a property of cursors. -/
def Cursor.Kept (I : Cursor → Prop) : Prop :=
  ∀ {c next : Cursor} {t : Instant}, c.advance = .record t next → I c → I next

variable {s : Source} {w w' w₁ : World} {key k : Nat} {name : String} {window : Window}
  {I : Cursor → Prop}

namespace Cursor

theorem kept_exhausted : Kept fun c => c.exhausted := fun h he =>
  absurd he (advance_eq_record h).1

theorem kept_inCalendar : Kept InCalendar := fun h hc =>
  hc.next (advance_eq_record h).2.1 (advance_eq_record h).2.2

end Cursor

namespace Producer

/-! ## Reading a record -/

variable {start time : Instant}

theorem position_release : ((w.release key).slot k).position = (w.slot k).position :=
  World.slot_release_congr Slot.position fun _ => rfl

theorem position_stepInto :
    ((stepInto s w key name start).2.slot k).position = (w.slot k).position := by
  unfold stepInto World.openFile
  cases s.describe start with
  | error f => exact position_release
  | ok path =>
    cases s.openAt start with
    | error f => exact position_release
    | ok file =>
      refine (World.slot_modify_congr Slot.position rfl).trans ?_
      exact position_release

theorem position_enter : ((enter s w key name start).2.slot k).position = (w.slot k).position := by
  unfold enter
  split
  · rfl
  · exact position_stepInto

theorem slot_readHeld {index : Int} : (w.readHeld key name index).2.slot k = w.slot k := by
  unfold World.readHeld
  split <;> rfl

theorem position_readRecordAt :
    ((readRecordAt s w key name window time).2.slot k).position = (w.slot k).position := by
  unfold readRecordAt
  split
  · rfl
  · next start _ =>
    have he : ((enter s w key name start).2.slot k).position = (w.slot k).position := position_enter
    split
    · next h => rwa [h] at he
    · next w₁ h =>
      rw [h] at he
      have hr : (w₁.readHeld key name (window.recordIndex time)).2.slot k = w₁.slot k :=
        slot_readHeld
      dsimp only
      split
      · next h =>
        rw [h] at hr
        rw [hr, he]
      · next h =>
        rw [h] at hr
        refine (World.slot_modify_congr Slot.position rfl).trans ?_
        rw [hr, he]

/-- Reading takes at most one step. -/
theorem kept_readNext (hI : Cursor.Kept I) (h : I ⟨window, (w.slot key).position⟩) :
    I ⟨window, ((readNext s w key name window).2.slot key).position⟩ := by
  unfold readNext
  split
  · exact h
  · exact h
  · next time next ha =>
    rw [position_readRecordAt]
    by_cases hs : w.HasSlot key
    · rw [World.slot_modify_self hs]
      have hnext := hI ha h
      obtain ⟨-, rfl, -⟩ := Cursor.advance_eq_record ha
      exact hnext
    · rwa [World.slot_modify_of_not_hasSlot hs]

/-- A producer that reads a record takes one step. -/
theorem advance_of_readNext (hs : w.HasSlot key) {g : Grid}
    (h : readNext s w key name window = (.item g, w')) :
    ∃ t, (Cursor.mk window (w.slot key).position).advance =
      .record t ⟨window, (w'.slot key).position⟩ := by
  obtain ⟨time, next, ha, hr⟩ := readNext_eq_item.1 h
  have hp : ((readRecordAt s (w.modify key fun slot => { slot with position := next.current }) key
      name window time).2.slot key).position = _ := position_readRecordAt
  rw [hr, World.slot_modify_self hs] at hp
  obtain ⟨-, rfl, -⟩ := Cursor.advance_eq_record ha
  exact ⟨time, by rw [ha, hp]⟩

/-! ## Pulling and closing -/

variable {p : Producer} {ps : List Producer} {g : Grid} {gs : List Grid} {l : Leaf}

theorem position_close : ((close w p).slot k).position = (w.slot k).position :=
  slot_close_congr Slot.position fun _ => rfl

theorem cursor_close : l.cursor (close w p) = l.cursor w := by
  rw [Leaf.cursor, Leaf.cursor, position_close]

theorem position_settle {r : Pull Grid × World} :
    ((settle p r).2.slot k).position = (r.2.slot k).position := by
  obtain ⟨_ | _ | _, w₁⟩ := r
  · rfl
  · exact position_close
  · exact position_close.trans (World.slot_modify_congr Slot.position rfl)

section
variable {title : Value} {rule : Rule} {first : Producer} {others : List Producer}

theorem position_derive {time : Option Instant} {inputs : List Value} :
    ((derive w key title rule time inputs gs).2.slot k).position = (w.slot k).position := by
  have ht : ((w.modify key fun slot => { slot with timestamp := time }).slot k).position =
      (w.slot k).position := World.slot_modify_congr Slot.position rfl
  unfold derive
  dsimp only
  split
  · exact ht
  · split <;> exact ht

theorem position_conclude {r : Pull (List Grid) × World} :
    ((conclude key title rule first others r).2.slot k).position = (r.2.slot k).position := by
  obtain ⟨gs | _ | _, w₁⟩ := r
  · exact position_derive
  · rfl
  · rfl

end

/-- A pull leaves the positions in other trees as they are. -/
theorem cursor_pull_of_not_mem (h : l.key ∉ p.keys) : l.cursor (p.pull s w).2 = l.cursor w := by
  rw [Leaf.cursor, Leaf.cursor, slot_pull_of_not_mem h]

theorem cursor_pullAll_of_not_mem (h : l.key ∉ keysAll ps) :
    l.cursor (pullAll s w ps).2 = l.cursor w := by
  rw [Leaf.cursor, Leaf.cursor, slot_pullAll_of_not_mem h]

theorem key_mem_of_leaf (h : l ∈ p.leaves) : l.key ∈ p.keys :=
  p.leafKeys_subset_keys (List.mem_map_of_mem h)

theorem key_mem_of_leafAll (h : l ∈ leavesAll ps) : l.key ∈ keysAll ps :=
  leafKeysAll_subset_keysAll ps (List.mem_map_of_mem h)

private theorem kept_pull_aux (hI : Cursor.Kept I) :
    (∀ (p : Producer), p.keys.Nodup → ∀ w, ∀ l ∈ p.leaves, I (l.cursor w) →
      I (l.cursor (p.pull s w).2)) ∧
    ∀ (ps : List Producer), (keysAll ps).Nodup → ∀ w, ∀ l ∈ leavesAll ps, I (l.cursor w) →
      I (l.cursor (pullAll s w ps).2) := by
  refine forest_induction ?raw ?combined ?nil ?cons
  case raw =>
    intro key name window _ w l hl h
    rw [leaves_raw, List.mem_singleton] at hl
    subst hl
    cases hf : (w.slot key).failure with
    | some f =>
      rw [pull_of_failed (p := raw key name window) hf]
      exact h
    | none =>
      rw [pull_raw hf, Leaf.cursor, position_settle]
      exact kept_readNext (w := w.record (.pulled key)) hI h
  case combined =>
    intro key title rule first others ih hn w l hl h
    rw [keys_combined, List.nodup_cons] at hn
    rw [leaves_combined] at hl
    cases hf : (w.slot key).failure with
    | some f =>
      rw [pull_of_failed (p := combined key title rule first others) hf]
      exact h
    | none =>
      rw [pull_combined hf, Leaf.cursor, position_settle, position_conclude]
      exact ih hn.2 (w.record (.pulled key)) l hl h
  case nil =>
    intro _ w l hl
    simp at hl
  case cons =>
    intro p ps ihp ihps hn w l hl h
    rw [keysAll_cons, List.nodup_append] at hn
    obtain ⟨hnp, hnps, hdisjoint⟩ := hn
    rw [leavesAll_cons, List.mem_append] at hl
    have hp : I (l.cursor (p.pull s w).2) := by
      rcases hl with hl | hl
      · exact ihp hnp w l hl h
      · rwa [cursor_pull_of_not_mem fun hk => hdisjoint _ hk _ (key_mem_of_leafAll hl) rfl]
    have hps : ∀ w, I (l.cursor w) → I (l.cursor (pullAll s w ps).2) := fun w h => by
      rcases hl with hl | hl
      · rwa [cursor_pullAll_of_not_mem fun hk => hdisjoint _ (key_mem_of_leaf hl) _ hk rfl]
      · exact ihps hnps w l hl h
    rw [pullAll]
    rcases hr : p.pull s w with ⟨_ | _ | _, w₁⟩
    · rw [hr] at hp
      have hps := hps w₁ hp
      dsimp only
      rcases hr : pullAll s w₁ ps with ⟨_ | _ | _, w₂⟩ <;> rwa [hr] at hps
    · rwa [hr] at hp
    · rwa [hr] at hp

/-- What every step keeps is kept by every pull, for all leaves of the tree. -/
theorem kept_pull (hI : Cursor.Kept I) (hn : p.keys.Nodup) (hl : l ∈ p.leaves)
    (h : I (l.cursor w)) : I (l.cursor (p.pull s w).2) :=
  (kept_pull_aux hI).1 p hn w l hl h

theorem placed_calls {cs : List Call} (h : p.Placed w) : p.Placed (p.calls w cs) := by
  induction cs using List.reverseRecOn with
  | nil => exact h
  | append_singleton cs c ih =>
    rw [calls_concat]
    exact fun k hk => hasSlot_call (ih k hk)

/-- What every step keeps is kept whatever is done with a tree. -/
theorem kept_calls (hI : Cursor.Kept I) (hn : p.keys.Nodup)
    (hl : l ∈ p.leaves) (h : I (l.cursor w)) (cs : List Call) : I (l.cursor (p.calls w cs)) := by
  induction cs using List.reverseRecOn with
  | nil => exact h
  | append_singleton cs c ih =>
    rw [calls_concat]
    cases c with
    | pull s => exact kept_pull hI hn hl ih
    | close =>
      change I (l.cursor (close (p.calls w cs) p))
      rwa [cursor_close]

private theorem advance_of_item_aux :
    (∀ (p : Producer), p.keys.Nodup → ∀ (w w' : World) (g : Grid), p.Placed w →
      p.pull s w = (.item g, w') → ∀ l ∈ p.leaves,
        ∃ t, (l.cursor w).advance = .record t (l.cursor w')) ∧
    ∀ (ps : List Producer), (keysAll ps).Nodup → ∀ (w w' : World) (gs : List Grid),
      (∀ k ∈ keysAll ps, w.HasSlot k) → pullAll s w ps = (.item gs, w') → ∀ l ∈ leavesAll ps,
        ∃ t, (l.cursor w).advance = .record t (l.cursor w') := by
  refine forest_induction ?raw ?combined ?nil ?cons
  case raw =>
    intro key name window _ w w' g hs h l hl
    rw [leaves_raw, List.mem_singleton] at hl
    subst hl
    exact advance_of_readNext (w := w.record (.pulled key)) (hs key (by simp))
      (pull_raw_eq_item.1 h).2
  case combined =>
    intro key title rule first others ih hn w w' g hs h l hl
    obtain ⟨hf, gs, w₁, hgs, hd⟩ := pull_combined_eq_item.1 h
    rw [keys_combined, List.nodup_cons] at hn
    rw [leaves_combined] at hl
    have hp : ((derive w₁ key title rule (first.timestamp w₁)
        ((first :: others).map Producer.name) gs).2.slot l.key).position =
          (w₁.slot l.key).position := position_derive
    rw [hd] at hp
    have hi := ih hn.2 (w.record (.pulled key)) w₁ gs
      (fun k hk => hs k (by rw [keys_combined]; exact List.mem_cons_of_mem _ hk)) hgs l hl
    rwa [Leaf.cursor, Leaf.cursor, hp]
  case nil =>
    intro _ w w' gs _ _ l hl
    simp at hl
  case cons =>
    intro p ps ihp ihps hn w w' gs hs h l hl
    rw [keysAll_cons, List.nodup_append] at hn
    obtain ⟨hnp, hnps, hdisjoint⟩ := hn
    simp only [keysAll_cons, List.mem_append] at hs
    obtain ⟨g, gs', w₁, hp, hps, -⟩ := pullAll_cons_eq_item.1 h
    have mp := p.pull_moves (s := s) (w := w)
    have hcp := cursor_pull_of_not_mem (s := s) (w := w) (p := p) (l := l)
    have hcps : l.key ∉ keysAll ps → l.cursor (pullAll s w₁ ps).2 = l.cursor w₁ :=
      cursor_pullAll_of_not_mem
    rw [hp] at mp hcp
    rw [hps] at hcps
    rw [leavesAll_cons, List.mem_append] at hl
    rcases hl with hl | hl
    · rw [hcps fun hk => hdisjoint _ (key_mem_of_leaf hl) _ hk rfl]
      exact ihp hnp w w₁ g (fun k hk => hs k (.inl hk)) hp l hl
    · rw [← hcp fun hk => hdisjoint _ hk _ (key_mem_of_leafAll hl) rfl]
      exact ihps hnps w₁ w' gs' (fun k hk => mp.hasSlot (hs k (.inr hk))) hps l hl

/-- A pull that gives a grid takes one step with each leaf. -/
theorem advance_of_item (hn : p.keys.Nodup) (hs : p.Placed w) (h : p.pull s w = (.item g, w'))
    (hl : l ∈ p.leaves) : ∃ t, (l.cursor w).advance = .record t (l.cursor w') :=
  advance_of_item_aux.1 p hn w w' g hs h l hl

private theorem exhausted_of_finished_aux :
    (∀ (p : Producer), p.keys.Nodup → ∀ (w w' : World), p.pull s w = (.finished, w') →
      ∃ l ∈ p.leaves, (l.cursor w).exhausted) ∧
    ∀ (ps : List Producer), (keysAll ps).Nodup → ∀ (w w' : World),
      pullAll s w ps = (.finished, w') → ∃ l ∈ leavesAll ps, (l.cursor w).exhausted := by
  refine forest_induction ?raw ?combined ?nil ?cons
  case raw =>
    intro key name window _ w w' h
    obtain ⟨-, ha, -⟩ := pull_raw_eq_finished.1 h
    exact ⟨⟨key, name, window⟩, by simp, Cursor.advance_eq_exhausted ha⟩
  case combined =>
    intro key title rule first others ih hn w w' h
    obtain ⟨-, w₁, hf, -⟩ := pull_combined_eq_finished.1 h
    rw [keys_combined, List.nodup_cons] at hn
    rw [leaves_combined]
    exact ih hn.2 (w.record (.pulled key)) w₁ hf
  case nil =>
    intro _ w w' h
    simp at h
  case cons =>
    intro p ps ihp ihps hn w w' h
    rw [keysAll_cons, List.nodup_append] at hn
    obtain ⟨hnp, hnps, hdisjoint⟩ := hn
    rw [leavesAll_cons]
    rcases pullAll_cons_eq_finished.1 h with hp | ⟨g, w₁, hp, hps⟩
    · obtain ⟨l, hl, he⟩ := ihp hnp w w' hp
      exact ⟨l, List.mem_append_left _ hl, he⟩
    · obtain ⟨l, hl, he⟩ := ihps hnps w₁ w' hps
      refine ⟨l, List.mem_append_right _ hl, ?_⟩
      -- The producers that were pulled before have slots of their own.
      have hcursor : l.cursor (p.pull s w).2 = l.cursor w :=
        cursor_pull_of_not_mem fun hk => hdisjoint _ hk _ (key_mem_of_leafAll hl) rfl
      rwa [← hcursor, hp]

/-- The end of the window is the end of some leaf. -/
theorem exists_exhausted_of_finished (hn : p.keys.Nodup) (h : p.pull s w = (.finished, w')) :
    ∃ l ∈ p.leaves, (l.cursor w).exhausted :=
  exhausted_of_finished_aux.1 p hn w w' h

end Producer

end GridStream
