import GridStream.Proofs.Producer.Position
import GridStream.Proofs.Producer.Run

/-!
# Pulls beyond the end

A pull that ends because a leaf has run out moves on the leaves that were asked before it and leaves
the others where they are. The evaluation of the tree is none the wiser: what lies ahead of the tree
is what lay ahead before, less one record (`Producer.rest_of_end`). So pulls give what the
evaluation says, one record after the other, up to the first failure
(`Producer.pulls_eq_eval`).
-/

namespace GridStream.Producer

variable {s : Source} {w w' w₁ : World} {ns ms : List Producer} {p : Producer} {ps : List Producer}
  {k key n m : Nat} {e : Stop}

/-! ## Closing producers that can be pulled -/

theorem ready_release (h : (w.slot k).Ready s) : ((w.release key).slot k).Ready s := by
  by_cases hk : k = key
  · subst hk
    by_cases hs : w.HasSlot k
    · rw [slot_release_self hs h]
      exact ⟨h.failure, rfl, nofun⟩
    · rw [World.release_of_handle_none (by rw [World.slot_of_not_hasSlot hs]; rfl)]
      exact h
  · rw [World.slot_release_of_ne hk]
    exact h

private theorem ready_close_aux :
    (∀ (p : Producer) (w : World), (w.slot k).Ready s → ((close w p).slot k).Ready s) ∧
    ∀ (ps : List Producer) (w : World), (w.slot k).Ready s → ((closeAll w ps).slot k).Ready s := by
  refine forest_induction ?raw ?combined ?nil ?cons
  case raw =>
    intro key name window w h
    rw [close]
    exact ready_release h
  case combined =>
    intro key name rule first others ih w h
    have h := ih w h
    rwa [closeAll, ← close] at h
  case nil =>
    intro w h
    rwa [closeAll]
  case cons =>
    intro p ps ihp ihps w h
    rw [closeAll]
    exact ihps _ (ihp w h)

theorem ready_close (h : (w.slot k).Ready s) : ((close w p).slot k).Ready s :=
  ready_close_aux.1 p w h

theorem Steady.close (h : Steady s ns w) : Steady s ns (close w p) where
  nodup := h.nodup
  placed q hq := by
    have m : Moves (fun _ _ => False) [] p.leafKeys [] w (Producer.close w p) :=
      close_moves (List.Subset.refl _)
    exact m.hasSlot (h.placed q hq)
  ready q hq := ready_close (h.ready q hq)
  inCalendar l hl := by
    rw [cursor_close]
    exact h.inCalendar l hl

/-- Producers that can be pulled separately can be pulled together where no two share a slot. -/
theorem Steady.append (hn : ((ns ++ ms).map Producer.key).Nodup) (h : Steady s ns w)
    (h' : Steady s ms w) : Steady s (ns ++ ms) w where
  nodup := hn
  placed q hq := (List.mem_append.1 hq).elim (h.placed q) (h'.placed q)
  ready q hq := (List.mem_append.1 hq).elim (h.ready q) (h'.ready q)
  inCalendar l hl := by
    rw [List.filterMap_append] at hl
    exact (List.mem_append.1 hl).elim (h.inCalendar l) (h'.inCalendar l)

/-- A combined producer can be pulled again once its inputs can, if its own slot is as before. -/
theorem steady_of_inputs {title : Value} {rule : Rule} {first : Producer} {others : List Producer}
    (h : Steady s (combined key title rule first others).nodes w)
    (hi : Steady s (nodesAll (first :: others)) w₁) (hn : w₁.slots.size = w.slots.size)
    (hkey : w₁.slot key = w.slot key) :
    Steady s (combined key title rule first others).nodes w₁ := by
  obtain ⟨hplaced, hready, -, -⟩ := h.combined
  have hroot : Steady s [combined key title rule first others] w₁ := by
    refine ⟨by simp, fun q hq => ?_, fun q hq => ?_, fun l hl => by simp [leaf?] at hl⟩
    · rw [List.mem_singleton] at hq
      exact hq ▸ (World.hasSlot_congr hn).2 hplaced
    · rw [List.mem_singleton] at hq
      subst hq
      rw [key_combined, hkey]
      exact hready
  have hnodup := h.nodup
  rw [nodes_combined] at hnodup ⊢
  exact .append hnodup hroot hi

/-! ## A pull at the end -/

theorem recordTime?_of_none {c : Cursor} (h : c.recordTime? m = none) (hmn : m ≤ n) :
    c.recordTime? n = none := by
  rw [Cursor.recordTime?_eq_none] at h ⊢
  omega

/-- Behind the end there are no grids. -/
theorem eval_ne_ok_of_end (h : p.eval s w m = .error e) (he : e.failure? = none) (hmn : m ≤ n)
    {g : Grid} : p.eval s w n ≠ .ok g := fun hg => by
  obtain ⟨l, hl, ht⟩ := exists_exhausted h he
  have hsome := isSome_recordTime?_of_eval hg hl
  rw [recordTime?_of_none ht hmn] at hsome
  cases hsome

theorem evalAll_ne_ok_of_end (h : evalAll s w m ps = .error e) (he : e.failure? = none)
    (hmn : m ≤ n) {gs : List Grid} : evalAll s w n ps ≠ .ok gs := fun hgs => by
  obtain ⟨l, hl, ht⟩ := exists_exhausted_all h he
  have hsome := isSome_recordTime?_of_evalAll hgs hl
  rw [recordTime?_of_none ht hmn] at hsome
  cases hsome

theorem evalAll_eq_of_slot (h : ∀ k ∈ keysAll ps, w'.slot k = w.slot k) :
    evalAll s w' k ps = evalAll s w k ps :=
  evalAll_congr fun _ hl => by rw [cursor_eq h hl]

/-- The list of inputs that ends leaves the combined producer as it was. -/
private theorem rest_of_end_combined {title : Value} {rule : Rule} {first : Producer}
    {others : List Producer} (h : Steady s (combined key title rule first others).nodes w)
    (ih : ∀ e, evalAll s (w.record (.pulled key)) 0 (first :: others) = .error e →
      e.failure? = none →
      Steady s (nodesAll (first :: others))
          (pullAll s (w.record (.pulled key)) (first :: others)).2 ∧
        ∀ j, evalAll s (pullAll s (w.record (.pulled key)) (first :: others)).2 j
            (first :: others) = evalAll s (w.record (.pulled key)) (j + 1) (first :: others))
    (he : (combined key title rule first others).eval s w 0 = .error e) (hf : e.failure? = none) :
    Steady s (combined key title rule first others).nodes
        ((combined key title rule first others).pull s w).2 ∧
      ∀ j, (combined key title rule first others).eval s
          ((combined key title rule first others).pull s w).2 j =
        (combined key title rule first others).eval s w (j + 1) := by
  obtain ⟨-, hready, hkey, hin⟩ := h.combined
  obtain ⟨e', he', rfl⟩ | ⟨gs, f, -, -, rfl⟩ := eval_combined_eq_error.1 he
  · obtain ⟨hst, hev⟩ := ih e' (evalAll_record.trans he') hf
    have hp := Prod.fst_eq_iff.1 (pullAll_of_error (hin (.pulled key)) (evalAll_record.trans he'))
    have hkey' := slot_pullAll_of_not_mem (s := s) (w := w.record (.pulled key)) hkey
    have hsize := (pullAll_moves (s := s) (w := w.record (.pulled key)) (first :: others)).size_eq
    generalize (pullAll s (w.record (.pulled key)) (first :: others)).2 = w₁ at *
    have hpull : (combined key title rule first others).pull s w =
        (.finished, GridStream.Producer.close w₁ (combined key title rule first others)) := by
      refine pull_combined_eq_finished.2 ⟨hready.failure, w₁, ?_, rfl⟩
      rw [hp, Stop.answer]
      change e'.failure? = none at hf
      rw [hf]
    rw [hpull]
    refine ⟨(steady_of_inputs h hst hsize hkey').close, fun j => ?_⟩
    have hclose : evalAll s
        (GridStream.Producer.close w₁ (combined key title rule first others)) j
        (first :: others) = evalAll s w (j + 1) (first :: others) :=
      (evalAll_congr fun l _ => by rw [cursor_close]).trans ((hev j).trans evalAll_record)
    rw [eval_combined, eval_combined, hclose]
    cases hall : evalAll s w (j + 1) (first :: others) with
    | error e => rfl
    | ok gs => exact absurd hall (evalAll_ne_ok_of_end he' hf (Nat.zero_le _))
  · cases hf

private theorem rest_of_end_aux :
    (∀ (p : Producer) (w : World), Steady s p.nodes w → ∀ e, p.eval s w 0 = .error e →
      e.failure? = none → Steady s p.nodes (p.pull s w).2 ∧
        ∀ j, p.eval s (p.pull s w).2 j = p.eval s w (j + 1)) ∧
    ∀ (ps : List Producer) (w : World), Steady s (nodesAll ps) w →
      ∀ e, evalAll s w 0 ps = .error e → e.failure? = none →
        Steady s (nodesAll ps) (pullAll s w ps).2 ∧
          ∀ j, evalAll s (pullAll s w ps).2 j ps = evalAll s w (j + 1) ps := by
  refine pull_induction ?raw ?combined ?nil ?stop ?cons
  case raw =>
    intro key name window w h e he hf
    obtain ⟨-, hr, -⟩ := steady_raw h
    obtain ⟨ht, -⟩ | ⟨t, f, -, -, rfl⟩ := eval_raw_eq_error.1 he
    · have hpull : (raw key name window).pull s w =
          (.finished, GridStream.Producer.close (w.record (.pulled key)) (raw key name window)) :=
        pull_raw_eq_finished.2 ⟨hr.failure, Cursor.advance_of_none ht, rfl⟩
      have hst : Steady s (raw key name window).nodes (w.record (.pulled key)) :=
        h.of_slot rfl fun _ _ => rfl
      rw [hpull]
      refine ⟨hst.close, fun j => eval_congr fun l hl => ?_⟩
      rw [leaves_raw, List.mem_singleton] at hl
      subst hl
      rw [cursor_close, recordTime?_of_none ht (Nat.zero_le (j + 1))]
      exact recordTime?_of_none ht (Nat.zero_le j)
    · cases hf
  case combined =>
    intro key title rule first others w h ih e he hf
    exact rest_of_end_combined h ih he hf
  case nil =>
    intro w e he
    rw [evalAll_nil] at he
    cases he
  case stop =>
    intro p ps w w₁ e h he hp ih e' he' hf
    obtain rfl : e = e' := by
      rcases evalAll_cons_eq_error.1 he' with he' | ⟨g, hg, -⟩
      · simpa [he] using he'
      · simp [he] at hg
    rw [hp] at ih
    obtain ⟨hst, hev⟩ := ih e he hf
    obtain ⟨-, hst', -⟩ := rest_of_pull h hp
    rw [pullAll_of_answer hp, nodesAll_cons]
    refine ⟨.append h.nodup hst hst', fun j => ?_⟩
    rw [evalAll, evalAll, hev]
    cases hj : p.eval s w (j + 1) with
    | error e => rfl
    | ok g => exact absurd hj (eval_ne_ok_of_end he hf (Nat.zero_le _))
  case cons =>
    intro p ps w w₁ g h hg hp hsl ihp ihps e he hf
    have he : evalAll s w 0 ps = .error e := by
      rcases evalAll_cons_eq_error.1 he with he | ⟨g', -, he⟩
      · simp [hg] at he
      · exact he
    obtain ⟨-, -, hev⟩ := rest_of_pull h hp
    obtain ⟨hst, hnext⟩ := ihps e (hev.trans he) hf
    obtain ⟨w₁', hp', hst', hshift⟩ := pull_of_ok h.left hg
    obtain rfl : w₁' = w₁ := by
      rw [hp] at hp'
      cases hp'
      rfl
    have hslot : ∀ k ∈ p.keys, (pullAll s w₁' ps).2.slot k = w₁'.slot k := fun k hk =>
      slot_pullAll_of_not_mem (h.disjoint hk)
    rw [snd_pullAll_of_item hp, nodesAll_cons]
    refine ⟨.append h.nodup (hst'.of_slot (pullAll_moves ps).size_eq hslot) hst, fun j => ?_⟩
    have hpj : p.eval s (pullAll s w₁' ps).2 j = p.eval s w (j + 1) := by
      rw [← hshift.eval]
      exact eval_congr fun l hl => by rw [cursor_eq hslot hl]
    rw [evalAll, evalAll, hpj, hnext, evalAll_eq_of_slot hsl]

/-- A pull that ends leaves ahead of the tree what lay ahead of it, less one record. -/
theorem rest_of_end (h : Steady s p.nodes w) {path : List Producer}
    (he : p.eval s w 0 = .error ⟨path, none⟩) : ∃ w', p.pull s w = (.finished, w') ∧
      Steady s p.nodes w' ∧ ∀ j, p.eval s w' j = p.eval s w (j + 1) :=
  ⟨_, Prod.fst_eq_iff.1 (pull_of_error h he), rest_of_end_aux.1 p w h _ he rfl⟩

/-! ## The first leaf -/

/-- Whether no producer of a tree has failed. -/
def Unfailed (p : Producer) (w : World) : Prop := ∀ k ∈ p.keys, (w.slot k).failure = none

private theorem pull_of_firstLeaf_aux :
    (∀ (p : Producer) (w : World), p.Unfailed w →
      (∀ v : World, v.slots = w.slots → (readNext s v p.firstLeaf.key p.firstLeaf.name
        p.firstLeaf.window).1 = e.answer) → (p.pull s w).1 = e.answer) ∧
    ∀ (ps : List Producer) (w : World), (∀ k ∈ keysAll ps, (w.slot k).failure = none) →
      ∀ p ∈ ps.head?, (∀ v : World, v.slots = w.slots → (readNext s v p.firstLeaf.key
        p.firstLeaf.name p.firstLeaf.window).1 = e.answer) → (pullAll s w ps).1 = e.answer := by
  refine forest_induction ?raw ?combined ?nil ?cons
  case raw =>
    intro key name window w hf h
    rw [pull_raw (hf key (by simp)), settle_fst]
    exact h _ rfl
  case combined =>
    intro key title rule first others ih w hf h
    have hin := ih (w.record (.pulled key))
      (fun k hk => hf k (by rw [keys_combined]; exact List.mem_cons_of_mem _ hk)) first rfl h
    rw [pull_combined (hf key (by simp)), settle_fst, Prod.fst_eq_iff.1 hin, conclude_answer]
  case nil =>
    intro w _ p hp
    cases hp
  case cons =>
    intro p ps ihp _ w hf q hq h
    cases hq
    have hp := ihp w (fun k hk => hf k (by simp [hk])) h
    rw [pullAll_of_answer (Prod.fst_eq_iff.1 hp)]

/-- Where the first leaf has no grid, its answer is that of the tree. -/
theorem pull_of_firstLeaf (hf : p.Unfailed w)
    (h : ∀ v : World, v.slots = w.slots →
      (readNext s v p.firstLeaf.key p.firstLeaf.name p.firstLeaf.window).1 = e.answer) :
    (p.pull s w).1 = e.answer :=
  pull_of_firstLeaf_aux.1 p w hf h

theorem slot_congr (h : w'.slots = w.slots) : w'.slot k = w.slot k := by
  rw [World.slot, World.slot, h]

/-- A tree that has not failed ends with its first leaf. -/
theorem finished_of_exhausted (hf : p.Unfailed w) (he : (p.firstLeaf.cursor w).exhausted) :
    (p.pull s w).1 = .finished := by
  refine pull_of_firstLeaf (e := ⟨[], none⟩) hf fun v hv => ?_
  have hadvance : (Cursor.mk p.firstLeaf.window (v.slot p.firstLeaf.key).position).advance =
      .exhausted := by
    rw [slot_congr hv]
    exact if_pos he
  rw [readNext, hadvance]
  rfl

theorem failure_close : ((close w p).slot k).failure = (w.slot k).failure :=
  slot_close_congr Slot.failure fun _ => rfl

theorem unfailed_pull (hf : p.Unfailed w) (h : ∀ f, (p.pull s w).1 ≠ .failed f) :
    p.Unfailed (p.pull s w).2 := fun k hk => by
  rw [failure_pull h, hf k hk]

theorem snd_pulls : (p.pulls s n w).2 = p.calls w (List.replicate n (.pull s)) := by
  induction n generalizing w with
  | zero => rfl
  | succ n ih =>
    rw [pulls, List.replicate_succ]
    exact ih

theorem snd_pulls_succ : (p.pulls s (n + 1) w).2 = (p.pull s (p.pulls s n w).2).2 := by
  rw [snd_pulls, snd_pulls, List.replicate_succ', calls_concat]
  rfl

/-- After some grids, every leaf stands that many records further on. -/
theorem position_of_pulls (hn : p.keys.Nodup) (hs : p.Placed w) (hf : p.Unfailed w)
    {gs : List Grid} (h : (p.pulls s gs.length w).1 = gs.map .item) :
    p.Unfailed (p.pulls s gs.length w).2 ∧ ∀ l ∈ p.leaves,
      ((l.cursor (p.pulls s gs.length w).2).current.micros : Int) =
        (l.cursor w).current.micros + gs.length * l.window.record.micros := by
  induction gs generalizing w with
  | nil => exact ⟨hf, fun l _ => by simp [pulls]⟩
  | cons g gs ih =>
    obtain ⟨hg, hgs⟩ : (p.pull s w).1 = .item g ∧
        (p.pulls s gs.length (p.pull s w).2).1 = gs.map .item := by
      simpa [pulls] using h
    have hs' : p.Placed (p.pull s w).2 := fun k hk => p.pull_moves.hasSlot (hs k hk)
    obtain ⟨hf', hpos⟩ := ih hs' (unfailed_pull hf (by simp [hg])) hgs
    refine ⟨hf', fun l hl => ?_⟩
    obtain ⟨t, ha⟩ := advance_of_item hn hs (Prod.fst_eq_iff.1 hg) hl
    obtain ⟨-, -, hstep⟩ := Cursor.advance_eq_record ha
    have hrest := hpos l hl
    rw [List.length_cons, pulls]
    push_cast
    rw [Int.add_mul, Int.one_mul, hrest, hstep, Leaf.cursor]
    dsimp only
    omega

/-! ## All pulls up to a failure -/

/-- What a pull answers where an evaluation gives this. -/
def answer (r : Except Stop Grid) : Pull Grid :=
  match r with
  | .ok g => .item g
  | .error e => e.answer

theorem answer_eq_item {r : Except Stop Grid} {g : Grid} : answer r = .item g ↔ r = .ok g := by
  cases r with
  | ok g' => simp [answer]
  | error e =>
    obtain ⟨path, _ | f⟩ := e <;> simp [answer, Stop.answer]

theorem pull_of_eval (h : Steady s p.nodes w) : (p.pull s w).1 = answer (p.eval s w 0) := by
  cases he : p.eval s w 0 with
  | ok g =>
    obtain ⟨w', hp, -⟩ := pull_of_ok h he
    rw [hp, answer]
  | error e => rw [pull_of_error h he, answer]

/-- As long as no record fails, pulls give grids and ends as the evaluation does. -/
theorem pulls_eq_eval (h : Steady s p.nodes w)
    (hf : ∀ j < n, ∀ path f, p.eval s w j ≠ .error ⟨path, some f⟩) :
    ∃ w', p.pulls s n w = ((List.range n).map fun j => answer (p.eval s w j), w') ∧
      Steady s p.nodes w' ∧ ∀ j, p.eval s w' j = p.eval s w (j + n) := by
  induction n generalizing w with
  | zero => exact ⟨w, rfl, h, fun _ => rfl⟩
  | succ n ih =>
    obtain ⟨w₁, hp, hst, hev⟩ : ∃ w₁, p.pull s w = (answer (p.eval s w 0), w₁) ∧
        Steady s p.nodes w₁ ∧ ∀ j, p.eval s w₁ j = p.eval s w (j + 1) := by
      cases he : p.eval s w 0 with
      | ok g =>
        obtain ⟨w₁, hp, hst, hshift⟩ := pull_of_ok h he
        exact ⟨w₁, hp, hst, fun j => hshift.eval⟩
      | error e =>
        obtain ⟨path, _ | f⟩ := e
        · exact rest_of_end h he
        · exact absurd he (hf 0 (Nat.succ_pos n) path f)
    obtain ⟨w₂, hps, hst', hev'⟩ := ih hst fun j hj path f => by
      rw [hev]
      exact hf (j + 1) (Nat.succ_lt_succ hj) path f
    refine ⟨w₂, ?_, hst', fun j => by rw [hev', hev, Nat.add_assoc]⟩
    rw [pulls, hp]
    dsimp only
    rw [hps, List.range_succ_eq_map, List.map_cons, List.map_map]
    simp only [hev]
    rfl

end GridStream.Producer
