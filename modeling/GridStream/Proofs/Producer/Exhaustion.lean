import GridStream.Proofs.Producer.Ending
import GridStream.Proofs.Producer.Failing

/-!
# After the end of a window

A tree keeps no note of having reached the end of a window: when it is pulled again, its inputs are
asked again, in the order in which they are declared. An input that is declared ahead of the one
that has run out may still have records, and reading one of them may fail. So the end is final where
the first leaf is among the first to run out, in particular where all windows are equal, and
otherwise just as long as none of the records behind the end fails (`Producer.end_final`). No grid
ever follows the end.
-/

namespace GridStream.Producer

variable {s : Source} {w w' w₁ : World} {p : Producer} {ps : List Producer} {k n : Nat}
  {cs : List Call}

/-- Whether no leaf of a tree has fewer records left than the first. -/
def FirstEnds (p : Producer) (w : World) : Prop :=
  ∀ l ∈ p.leaves, (p.firstLeaf.cursor w).remaining ≤ (l.cursor w).remaining

theorem halted_eq_false : p.halted w = false ↔ (w.slot p.key).failure = none := by
  rw [halted, Option.isSome_eq_false_iff, Option.isNone_iff_eq_none]

/-! ## No grid follows the end -/

/-- A tree of which a leaf has run out gives no grid any more, whatever is done with it. -/
theorem pull_ne_item_of_exhausted (hn : p.keys.Nodup) (hs : p.Placed w) {l : Leaf}
    (hl : l ∈ p.leaves) (he : (l.cursor w).exhausted) {g : Grid} :
    (p.pull s (p.calls w cs)).1 ≠ .item g := fun hg => by
  obtain ⟨t, ha⟩ := advance_of_item hn (placed_calls hs) (Prod.fst_eq_iff.1 hg) hl
  exact (Cursor.advance_eq_record ha).1 (kept_calls Cursor.kept_exhausted hn hl he cs)

/-! ## Trees whose first leaf has run out -/

/-- What is done with a tree whose first leaf has run out does not halt it. -/
theorem unfailed_calls (hn : p.keys.Nodup) (hf : p.Unfailed w)
    (he : (p.firstLeaf.cursor w).exhausted) (cs : List Call) : p.Unfailed (p.calls w cs) := by
  induction cs using List.reverseRecOn with
  | nil => exact hf
  | append_singleton cs c ih =>
    rw [calls_concat]
    cases c with
    | close => exact fun k hk => failure_close.trans (ih k hk)
    | pull s =>
      refine unfailed_pull ih fun f h => ?_
      have he := kept_calls Cursor.kept_exhausted hn p.firstLeaf_mem_leaves he cs
      rw [finished_of_exhausted ih he] at h
      cases h

private theorem failure_settle_failed {f : Failure} {r : Pull Grid × World}
    (hs : r.2.HasSlot p.key) (h : settle p r = (.failed f, w')) :
    (w'.slot p.key).failure = some f := by
  obtain ⟨w₁, rfl, rfl⟩ := settle_eq_failed.1 h
  rw [failure_close, World.slot_modify_self hs]

/-- A pull that fails leaves its producer halted. -/
theorem failure_of_failed {f : Failure} (hs : w.HasSlot p.key)
    (h : p.pull s w = (.failed f, w')) : (w'.slot p.key).failure ≠ none := by
  cases hf : (w.slot p.key).failure with
  | some f' =>
    rw [pull_of_failed hf] at h
    cases h
    simp [hf]
  | none =>
    cases p with
    | raw key name window =>
      have m : Moves s.Gives [key] [key] [] (w.record (.pulled key))
          (readNext s (w.record (.pulled key)) key name window).2 :=
        readNext_moves (List.mem_singleton_self key) (List.mem_singleton_self key)
      rw [key_raw] at hf hs
      rw [pull_raw hf] at h
      have hroot := failure_settle_failed (p := raw key name window) (m.hasSlot hs) h
      exact Option.ne_none_iff_exists'.2 ⟨f, hroot⟩
    | combined key title rule first others =>
      have m := pullAll_moves (s := s) (w := w.record (.pulled key)) (first :: others)
      rw [key_combined] at hf hs
      rw [pull_combined hf] at h
      have hroot := failure_settle_failed (p := combined key title rule first others)
        (hasSlot_conclude (m.hasSlot hs)) h
      exact Option.ne_none_iff_exists'.2 ⟨f, hroot⟩

/-! ## Trees whose first leaf is among the first to run out -/

/-- A pull that gives a grid takes one record from each leaf. -/
theorem firstEnds_of_item (hn : p.keys.Nodup) (hs : p.Placed w) (h : p.FirstEnds w) {g : Grid}
    (hp : p.pull s w = (.item g, w')) : p.FirstEnds w' := by
  have hnext : ∀ l ∈ p.leaves, (l.cursor w').remaining + 1 = (l.cursor w).remaining := by
    intro l hl
    obtain ⟨t, ha⟩ := advance_of_item hn hs hp hl
    obtain ⟨hne, hwindow, hpos⟩ := Cursor.advance_eq_record ha
    exact Cursor.remaining_next hne hwindow hpos
  intro l hl
  have hle := h l hl
  have hl := hnext l hl
  have hfirst := hnext _ p.firstLeaf_mem_leaves
  omega

/-- The end is reached by the first leaf. -/
theorem exhausted_of_finished (hn : p.keys.Nodup) (h : p.FirstEnds w)
    (hp : p.pull s w = (.finished, w')) : (p.firstLeaf.cursor w).exhausted := by
  obtain ⟨l, hl, he⟩ := exists_exhausted_of_finished hn hp
  have hle := h l hl
  by_contra hne
  have hfirst : (0 : Nat) < (p.firstLeaf.cursor w).remaining :=
    Cursor.lt_remaining.2 (Option.isSome_of_eq_some (Cursor.recordTime?_zero.2 ⟨hne, rfl⟩))
  rw [show (l.cursor w).remaining = 0 from if_pos he] at hle
  omega

/-- Whatever is done with such a tree up to a failure, its first leaf stays among the first to run
out. -/
theorem firstEnds_calls (hn : p.keys.Nodup) (hs : p.Placed w) (hf : p.Unfailed w)
    (h : p.FirstEnds w) (cs : List Call) : ((p.calls w cs).slot p.key).failure ≠ none ∨
      p.Unfailed (p.calls w cs) ∧
        (p.FirstEnds (p.calls w cs) ∨ (p.firstLeaf.cursor (p.calls w cs)).exhausted) := by
  induction cs using List.reverseRecOn with
  | nil => exact .inr ⟨hf, .inl h⟩
  | append_singleton cs c ih =>
    rw [calls_concat]
    have hs' : p.Placed (p.calls w cs) := placed_calls hs
    generalize p.calls w cs = w₁ at ih hs'
    cases c with
    | close =>
      change ((close w₁ p).slot p.key).failure ≠ none ∨ p.Unfailed (close w₁ p) ∧
        (p.FirstEnds (close w₁ p) ∨ (p.firstLeaf.cursor (close w₁ p)).exhausted)
      simp only [Unfailed, FirstEnds, failure_close, cursor_close]
      exact ih
    | pull s =>
      change ((p.pull s w₁).2.slot p.key).failure ≠ none ∨ p.Unfailed (p.pull s w₁).2 ∧
        (p.FirstEnds (p.pull s w₁).2 ∨ (p.firstLeaf.cursor (p.pull s w₁).2).exhausted)
      rcases ih with hfail | ⟨hf, hends⟩
      · obtain ⟨f, hfail⟩ := Option.ne_none_iff_exists'.1 hfail
        rw [pull_of_failed hfail]
        exact .inl (by simp [hfail])
      · rcases hp : p.pull s w₁ with ⟨g | _ | f, w₂⟩
        · have hf' := unfailed_pull (s := s) hf (by simp [hp])
          rw [hp] at hf'
          refine .inr ⟨hf', ?_⟩
          rcases hends with hends | he
          · exact .inl (firstEnds_of_item hn hs' hends hp)
          · obtain ⟨t, ha⟩ := advance_of_item hn hs' hp p.firstLeaf_mem_leaves
            exact absurd he (Cursor.advance_eq_record ha).1
        · have hf' := unfailed_pull (s := s) hf (by simp [hp])
          have he := kept_pull (s := s) Cursor.kept_exhausted hn p.firstLeaf_mem_leaves
            (hends.elim (exhausted_of_finished hn · hp) id)
          rw [hp] at hf' he
          exact .inr ⟨hf', .inr he⟩
        · have hroot := failure_of_failed (hs' _ p.key_mem_keys) hp
          exact .inl hroot

/-! ## Trees whose files do not change -/

/-- A tree that has failed stays halted. -/
theorem failure_pulls_of_failed {i m : Nat} (hs : p.Placed w) {f : Failure}
    (h : (p.pull s (p.pulls s i w).2).1 = .failed f) (hi : i < m) :
    ((p.pulls s m w).2.slot p.key).failure ≠ none := by
  induction hi with
  | refl =>
    have hplaced : p.Placed (p.pulls s i w).2 := by
      rw [snd_pulls]
      exact placed_calls hs
    rw [Nat.succ_eq_add_one, snd_pulls_succ]
    exact failure_of_failed (hplaced _ p.key_mem_keys) (Prod.fst_eq_iff.1 h)
  | step _ ih =>
    obtain ⟨f', hroot⟩ := Option.ne_none_iff_exists'.1 ih
    rw [Nat.succ_eq_add_one, snd_pulls_succ, pull_of_failed hroot]
    exact ih

/-- A tree that ends has not failed before. -/
theorem not_failed_of_finished {i m : Nat} (hs : p.Placed w)
    (h : (p.pull s (p.pulls s m w).2).1 = .finished) (hi : i ≤ m) {f : Failure} :
    (p.pull s (p.pulls s i w).2).1 ≠ .failed f := by
  intro hf
  rcases Nat.lt_or_eq_of_le hi with hlt | rfl
  · obtain ⟨f', hroot⟩ := Option.ne_none_iff_exists'.1 (failure_pulls_of_failed hs hf hlt)
    rw [pull_of_failed hroot] at h
    cases h
  · rw [h] at hf
    cases hf

theorem placed_of_steady (h : Steady s p.nodes w) : p.Placed w := fun k hk => by
  obtain ⟨q, hq, rfl⟩ := List.mem_map.1 hk
  exact h.placed q hq

/-- Where no pull fails, no record does. -/
theorem eval_ne_failed (hs : Steady s p.nodes w)
    (h : ∀ j < n, ∀ f, (p.pull s (p.pulls s j w).2).1 ≠ .failed f) : ∀ j < n, ∀ path f,
      p.eval s w j ≠ .error ⟨path, some f⟩ := by
  intro j
  induction j using Nat.strongRecOn with
  | ind j ih =>
    intro hj path f he
    obtain ⟨w₁, hp, hst, hev⟩ := pulls_eq_eval (n := j) hs fun i hi => ih i hi (by omega)
    refine h j hj f ?_
    rw [hp, pull_of_eval hst, hev, Nat.zero_add, he]
    rfl

/-- Up to the end, no record has failed. -/
theorem eval_ne_failed_of_finished {m : Nat} (hs : Steady s p.nodes w)
    (h : (p.pull s (p.pulls s m w).2).1 = .finished) : ∀ j ≤ m, ∀ path f,
      p.eval s w j ≠ .error ⟨path, some f⟩ := fun j hj =>
  eval_ne_failed hs (n := m + 1)
    (fun _ hi _ => not_failed_of_finished (placed_of_steady hs) h (Nat.le_of_lt_succ hi)) j
    (Nat.lt_succ_of_le hj)

/-- A tree that ends leaves all records behind the end ahead of it. -/
theorem exists_rest_of_finished {m : Nat} (hs : Steady s p.nodes w)
    (h : (p.pull s (p.pulls s m w).2).1 = .finished) :
    (∃ path, p.eval s w m = .error ⟨path, none⟩) ∧
      ∃ w₁, p.pull s (p.pulls s m w).2 = (.finished, w₁) ∧ Steady s p.nodes w₁ ∧
        ∀ j, p.eval s w₁ j = p.eval s w (j + (m + 1)) := by
  obtain ⟨w₀, hp₀, hst₀, hev₀⟩ := pulls_eq_eval (n := m) hs fun j hj =>
    eval_ne_failed_of_finished hs h j (by omega)
  have hend : ∃ path, p.eval s w₀ 0 = .error ⟨path, none⟩ := by
    rw [hp₀, pull_of_eval hst₀] at h
    cases he : p.eval s w₀ 0 with
    | ok g =>
      rw [he] at h
      cases h
    | error e =>
      obtain ⟨path, _ | f⟩ := e
      · exact ⟨path, rfl⟩
      · rw [he] at h
        cases h
  obtain ⟨path, hend⟩ := hend
  obtain ⟨w₁, hp₁, hst₁, hev₁⟩ := rest_of_end hst₀ hend
  refine ⟨⟨path, ?_⟩, w₁, by rw [hp₀, hp₁], hst₁, fun j => ?_⟩
  · rw [← hend, hev₀, Nat.zero_add]
  · rw [hev₁, hev₀, Nat.add_assoc, Nat.add_comm 1 m]

/-- Where all pulls end, no record fails. -/
theorem eval_ne_failed_of_pulls (hs : Steady s p.nodes w)
    (h : ∀ n, (p.pulls s n w).1 = List.replicate n .finished) :
    ∀ j path f, p.eval s w j ≠ .error ⟨path, some f⟩ := fun j =>
  eval_ne_failed hs (n := j + 1) (fun i _ f hf => by
    have hlast := h (i + 1)
    rw [pulls_concat, hf, List.replicate_succ'] at hlast
    cases List.append_inj_right' hlast rfl) j (Nat.lt_succ_self j)

/-- A tree that is not halted has given a grid for each record up to the present one. -/
theorem steady_pulls_of_unhalted (hs : Steady s p.nodes w)
    (hk : ∀ j < n, ∀ l ∈ p.leaves, ((l.cursor w).recordTime? j).isSome)
    (h : p.halted (p.pulls s n w).2 = false) :
    Steady s p.nodes (p.pulls s n w).2 ∧ p.Shifted n w (p.pulls s n w).2 := by
  have hnever := eval_ne_failed hs fun j hj f hf =>
    failure_pulls_of_failed (placed_of_steady hs) hf hj (halted_eq_false.1 h)
  have hgrid : ∀ j < n, ∃ g, p.eval s w j = .ok g := fun j hj => by
    cases hev : p.eval s w j with
    | ok g => exact ⟨g, rfl⟩
    | error e =>
      obtain ⟨path, _ | f⟩ := e
      · obtain ⟨l, hl, ht⟩ := exists_exhausted hev rfl
        have hsome := hk j hj l hl
        rw [ht] at hsome
        cases hsome
      · exact absurd hev (hnever j hj path f)
  obtain ⟨gs, rfl, hgs⟩ := exists_grids hgrid
  obtain ⟨w', hp, hst, hshift⟩ := pulls_of_ok hs gs hgs
  rw [hp]
  exact ⟨hst, hshift⟩

/-- Behind the end, a record that does not fail ends the tree. -/
theorem answer_of_end {m : Nat} {path : List Producer} (h : p.eval s w m = .error ⟨path, none⟩)
    (hmn : m ≤ n) (hf : ∀ path f, p.eval s w n ≠ .error ⟨path, some f⟩) :
    answer (p.eval s w n) = .finished := by
  cases he : p.eval s w n with
  | ok g => exact absurd he (eval_ne_ok_of_end h rfl hmn)
  | error e =>
    obtain ⟨path', _ | f⟩ := e
    · rfl
    · exact absurd he (hf _ f)

/-- The end of a tree whose files do not change is final just if no record fails. -/
theorem pulls_finished_iff {m : Nat} (hs : Steady s p.nodes w)
    (h : (p.pull s (p.pulls s m w).2).1 = .finished) :
    (∀ n, (p.pulls s n (p.pull s (p.pulls s m w).2).2).1 = List.replicate n .finished) ↔
      ∀ j path f, p.eval s w j ≠ .error ⟨path, some f⟩ := by
  obtain ⟨⟨path, hend⟩, w₁, hp, hst, hev⟩ := exists_rest_of_finished hs h
  rw [hp]
  constructor
  · intro hall j
    rcases Nat.lt_or_ge m j with hj | hj
    · obtain ⟨i, rfl⟩ : ∃ i, j = i + (m + 1) := ⟨j - (m + 1), by omega⟩
      rw [← hev]
      exact eval_ne_failed_of_pulls hst hall i
    · exact eval_ne_failed_of_finished hs h j hj
  · intro hnone n
    obtain ⟨w₂, hp₂, -⟩ := pulls_eq_eval (n := n) hst fun j _ => by
      rw [hev]
      exact hnone _
    rw [hp₂, List.eq_replicate_iff]
    refine ⟨by simp, fun r hr => ?_⟩
    obtain ⟨j, -, rfl⟩ := List.mem_map.1 hr
    rw [hev]
    exact answer_of_end hend (by omega) (hnone _)

/-! ## The end -/

/-- What follows the end of a window, for every tree and whatever was done with it before. The pull
that says that the window is exhausted does not halt the tree, and no later pull gives a grid, even
if the files change. Where no leaf has fewer records than the first, every later pull says the same
and the tree is never halted. In general, if the files do not change, all later pulls say the same
just if no record fails, those behind the end included. -/
theorem end_final (h : p.Fresh w) :
    (∀ (s : Source) (cs : List Call), (p.pull s (p.calls w cs)).1 = .finished →
      p.halted (p.pull s (p.calls w cs)).2 = false ∧
      ∀ (s' : Source) (cs' : List Call),
        (∀ g, (p.pull s' (p.calls (p.pull s (p.calls w cs)).2 cs')).1 ≠ .item g) ∧
        (p.FirstEnds w →
          (p.pull s' (p.calls (p.pull s (p.calls w cs)).2 cs')).1 = .finished ∧
          p.halted (p.pull s' (p.calls (p.pull s (p.calls w cs)).2 cs')).2 = false)) ∧
    ∀ s : Source, (∀ l ∈ p.leaves, (l.cursor w).InCalendar) →
      ∀ m, (p.pull s (p.pulls s m w).2).1 = .finished →
        ((∀ n, (p.pulls s n (p.pull s (p.pulls s m w).2).2).1 = List.replicate n .finished) ↔
          ∀ j path f, p.eval s w j ≠ .error ⟨path, some f⟩) := by
  refine ⟨fun s cs hfin => ?_, fun s hc m hfin => pulls_finished_iff (h.steady hc) hfin⟩
  have hp := Prod.fst_eq_iff.1 hfin
  have hne : ∀ f, (p.pull s (p.calls w cs)).1 ≠ .failed f := by simp [hfin]
  have hs : p.Placed (p.pull s (p.calls w cs)).2 :=
    fun k hk => hasSlot_call (c := .pull s) (placed_calls h.placed k hk)
  have hroot : ((p.pull s (p.calls w cs)).2.slot p.key).failure = none := by
    rw [failure_pull hne, failure_of_pull hne]
  refine ⟨halted_eq_false.2 hroot, fun s' cs' => ⟨fun g => ?_, fun hends => ?_⟩⟩
  · obtain ⟨l, hl, he⟩ := exists_exhausted_of_finished h.nodup hp
    exact pull_ne_item_of_exhausted h.nodup hs hl (kept_pull Cursor.kept_exhausted h.nodup hl he)
  · rcases firstEnds_calls h.nodup h.placed h.failure hends cs with hfail | ⟨hf, hends⟩
    · exact absurd (failure_of_pull hne) hfail
    · have he : (p.firstLeaf.cursor (p.pull s (p.calls w cs)).2).exhausted :=
        kept_pull Cursor.kept_exhausted h.nodup p.firstLeaf_mem_leaves
          (hends.elim (exhausted_of_finished h.nodup · hp) id)
      have hf' := unfailed_calls h.nodup (unfailed_pull hf hne) he cs'
      have hend := finished_of_exhausted (s := s') hf'
        (kept_calls Cursor.kept_exhausted h.nodup p.firstLeaf_mem_leaves he cs')
      exact ⟨hend, halted_eq_false.2 (unfailed_pull hf' (by simp [hend]) _ p.key_mem_keys)⟩

/-- Where all leaves have the same number of records, the first is among the first to run out. -/
theorem firstEnds_of_remaining {m : Int} (h : ∀ l ∈ p.leaves, (l.cursor w).remaining = m) :
    p.FirstEnds w := fun l hl => by
  rw [h l hl, h _ p.firstLeaf_mem_leaves]

/-- The small tree ends after two hours for good, whatever its files become. -/
theorem end_final_sample : sample.Fresh sampleWorld ∧ ∃ s₀ : Source,
    (sample.pull s₀ (sample.calls sampleWorld [.pull s₀, .pull s₀])).1 = .finished ∧
    sample.FirstEnds sampleWorld ∧ ∀ s cs, (sample.pull s (sample.calls
      (sample.pull s₀ (sample.calls sampleWorld [.pull s₀, .pull s₀])).2 cs)).1 = .finished := by
  let s₀ := sampleSource fun _ _ => true
  have hfin : (sample.pull s₀ (sample.calls sampleWorld [.pull s₀, .pull s₀])).1 = .finished := by
    have hp : (sample.pulls s₀ 3 sampleWorld).1 = [.item default, .item default, .finished] := rfl
    simp only [pulls, List.cons.injEq] at hp
    exact hp.2.2.1
  have hends : sample.FirstEnds sampleWorld := firstEnds_of_remaining (m := 2) fun l hl => by
    rw [sample_cursor hl]
    rfl
  exact ⟨sample_fresh, s₀, hfin, hends, fun s cs =>
    ((((end_final sample_fresh).1 s₀ _ hfin).2 s cs).2 hends).1⟩

/-! ## A tree that fails behind its end -/

/-- Some hours with a record each, in files of one hour. -/
def hoursWindow (n : Fin 25) : Window where
  __ := sampleWindow
  stop := ⟨n * 3600000000, by have := n.isLt; unfold Date.dayLimit microsPerDay; omega⟩
  start_le_stop := Nat.zero_le _

/-- A combined producer whose second input runs out two hours before the first. -/
def uneven : Producer :=
  combined 2 (.text "S") (.function fun gs => .ok (gs.headD default))
    (raw 0 "A" (hoursWindow 3)) [raw 1 "B" (hoursWindow 1)]

theorem uneven_fresh : uneven.Fresh sampleWorld :=
  ⟨by decide, sample_placed, fun k _ => (slot_sampleWorld k).2, fun k _ => (slot_sampleWorld k).1.1,
    fun k _ => (slot_sampleWorld k).1.2⟩

/-- The end is not final where a record behind it fails: the first input goes on to its second
hour, where the second input has run out, and then to its third, which cannot be read. -/
theorem uneven_halted_after_end : uneven.Fresh sampleWorld ∧
    ∃ s : Source, (uneven.pulls s 3 sampleWorld).1 = [.item default, .finished,
        .failed (.within (reading "A" ⟨7200000000, by decide⟩ 0) .outOfCalendar)] ∧
      uneven.halted (uneven.pulls s 2 sampleWorld).2 = false ∧
      uneven.halted (uneven.pulls s 3 sampleWorld).2 = true :=
  ⟨uneven_fresh, sampleSource fun t _ => t.micros < 7200000000, rfl, rfl, rfl⟩

end GridStream.Producer
