import GridStream.Proofs.Producer.Reading
import Mathlib.Data.Prod.Basic

/-!
# What a pull gives

A pull of a tree that is `Steady` gives what the evaluation of the tree gives
(`Producer.pull_of_ok`, `Producer.pull_of_error`). Where that is a grid, every producer of the tree
moves on by one record and the tree is steady again.
-/

namespace GridStream

/-- What a pull answers where an evaluation stops. -/
def Stop.answer {α : Type} (e : Stop) : Pull α :=
  match e.failure? with
  | none => .finished
  | some f => .failed f

namespace Producer

/-- Producers that can be pulled: no two share a slot, none has failed, and the calendar does not
end at the last record of any of them. -/
structure Steady (s : Source) (ns : List Producer) (w : World) : Prop where
  nodup : (ns.map key).Nodup
  placed : ∀ q ∈ ns, w.HasSlot q.key
  ready : ∀ q ∈ ns, (w.slot q.key).Ready s
  inCalendar : ∀ l ∈ ns.filterMap leaf?, (l.cursor w).InCalendar

/-- Producers that have all moved on by one record. -/
structure Advanced (s : Source) (ns : List Producer) (w w' : World) : Prop where
  ready : ∀ q ∈ ns, (w'.slot q.key).Ready s
  position : ∀ l ∈ ns.filterMap leaf?, ((l.cursor w').current.micros : Int) =
    (l.cursor w).current.micros + l.window.record.micros

variable {s : Source} {w w' w₁ : World} {ns ms : List Producer} {key : Nat} {rule : Rule}
  {first p q : Producer} {others ps : List Producer} {k : Nat} {l : Leaf} {g : Grid} {e : Stop}

theorem leafKey_mem (h : l ∈ ns.filterMap leaf?) : l.key ∈ ns.map Producer.key := by
  obtain ⟨q, hq, hl⟩ := List.mem_filterMap.1 h
  refine List.mem_map.2 ⟨q, hq, ?_⟩
  cases q with
  | raw key name window =>
    cases hl
    rfl
  | combined => cases hl

/-- The position of a leaf is kept in its slot. -/
theorem cursor_eq (hs : ∀ k ∈ ns.map Producer.key, w'.slot k = w.slot k)
    (hl : l ∈ ns.filterMap leaf?) : l.cursor w' = l.cursor w := by
  rw [Leaf.cursor, Leaf.cursor, hs _ (leafKey_mem hl)]

namespace Steady

theorem left (h : Steady s (ns ++ ms) w) : Steady s ns w where
  nodup := (List.nodup_append.1 (List.map_append ▸ h.nodup)).1
  placed q hq := h.placed q (List.mem_append_left _ hq)
  ready q hq := h.ready q (List.mem_append_left _ hq)
  inCalendar l hl := h.inCalendar l (by rw [List.filterMap_append]; exact List.mem_append_left _ hl)

theorem right (h : Steady s (ns ++ ms) w) : Steady s ms w where
  nodup := (List.nodup_append.1 (List.map_append ▸ h.nodup)).2.1
  placed q hq := h.placed q (List.mem_append_right _ hq)
  ready q hq := h.ready q (List.mem_append_right _ hq)
  inCalendar l hl :=
    h.inCalendar l (by rw [List.filterMap_append]; exact List.mem_append_right _ hl)

theorem disjoint (h : Steady s (ns ++ ms) w) (hk : k ∈ ns.map Producer.key) :
    k ∉ ms.map Producer.key := fun hk' =>
  (List.nodup_append.1 (List.map_append ▸ h.nodup)).2.2 k hk k hk' rfl

/-- Only the slots of the producers matter. -/
theorem of_slot (h : Steady s ns w) (hn : w'.slots.size = w.slots.size)
    (hs : ∀ k ∈ ns.map Producer.key, w'.slot k = w.slot k) : Steady s ns w' := by
  have hs' : ∀ q ∈ ns, w'.slot q.key = w.slot q.key := fun q hq =>
    hs _ (List.mem_map_of_mem hq)
  refine ⟨h.nodup, fun q hq => ?_, fun q hq => hs' q hq ▸ h.ready q hq, fun l hl => ?_⟩
  · exact (World.hasSlot_congr hn).2 (h.placed q hq)
  · rw [cursor_eq hs hl]
    exact h.inCalendar l hl

theorem failure (h : Steady s ns w) (hk : k ∈ ns.map Producer.key) :
    (w.slot k).failure = none := by
  obtain ⟨q, hq, rfl⟩ := List.mem_map.1 hk
  exact (h.ready q hq).failure

/-- What the pull of a combined producer relies on. -/
theorem combined {name : Value} (h : Steady s (combined key name rule first others).nodes w) :
    w.HasSlot key ∧ (w.slot key).Ready s ∧ key ∉ keysAll (first :: others) ∧
      ∀ e, Steady s (nodesAll (first :: others)) (w.record e) := by
  rw [nodes_combined] at h
  have hself := List.mem_cons_self (a := Producer.combined key name rule first others)
    (l := nodesAll (first :: others))
  have hin : Steady s (nodesAll (first :: others)) w :=
    (show Steady s ([.combined key name rule first others] ++ _) w from h).right
  exact ⟨h.placed _ hself, h.ready _ hself, (List.nodup_cons.1 h.nodup).1, fun e =>
    hin.of_slot rfl fun _ _ => rfl⟩

end Steady

namespace Advanced

theorem recordTime? (h : Advanced s ns w w') (hl : l ∈ ns.filterMap leaf?) :
    (l.cursor w').recordTime? k = (l.cursor w).recordTime? (k + 1) :=
  Cursor.recordTime?_next rfl (h.position l hl)

theorem steady (h : Advanced s ns w w') (hs : Steady s ns w)
    (hn : w'.slots.size = w.slots.size) : Steady s ns w' where
  nodup := hs.nodup
  placed q hq := (World.hasSlot_congr hn).2 (hs.placed q hq)
  ready := h.ready
  inCalendar l hl := (hs.inCalendar l hl).next rfl (h.position l hl)

theorem shifted (h : Advanced s p.nodes w w') : p.Shifted 1 w w' := fun _ hl _ =>
  h.recordTime? hl

theorem append (h : Advanced s ns w w') (h' : Advanced s ms w w') :
    Advanced s (ns ++ ms) w w' where
  ready q hq := (List.mem_append.1 hq).elim (h.ready q) (h'.ready q)
  position l hl := by
    rw [List.filterMap_append] at hl
    exact (List.mem_append.1 hl).elim (h.position l) (h'.position l)

/-- Producers whose slots are not touched before are moved on from where they were. -/
theorem of_slot_left (h : Advanced s ns w₁ w')
    (hs : ∀ k ∈ ns.map Producer.key, w₁.slot k = w.slot k) : Advanced s ns w w' where
  ready := h.ready
  position l hl := by rw [h.position l hl, cursor_eq hs hl]

/-- Producers whose slots are not touched afterwards stay where they are. -/
theorem of_slot_right (h : Advanced s ns w w₁)
    (hs : ∀ k ∈ ns.map Producer.key, w'.slot k = w₁.slot k) : Advanced s ns w w' where
  ready q hq := hs _ (List.mem_map_of_mem hq) ▸ h.ready q hq
  position l hl := by rw [cursor_eq hs hl, h.position l hl]

end Advanced

/-! ## Answers of inputs -/

@[simp] theorem conclude_answer {name : Value} :
    conclude key name rule first others (e.answer, w) = (e.answer, w) := by
  unfold Stop.answer
  cases e.failure? <;> rfl

/-- The first producer that gives no grid ends the pulling of several. -/
theorem pullAll_of_answer (h : p.pull s w = (e.answer, w₁)) :
    pullAll s w (p :: ps) = (e.answer, w₁) := by
  rw [pullAll, h]
  unfold Stop.answer
  cases e.failure? <;> rfl

theorem snd_pullAll_of_item (h : p.pull s w = (.item g, w₁)) :
    (pullAll s w (p :: ps)).2 = (pullAll s w₁ ps).2 := by
  rw [pullAll, h]
  dsimp only
  rcases pullAll s w₁ ps with ⟨_ | _ | _, w₂⟩ <;> rfl

theorem pullAll_of_item (h : p.pull s w = (.item g, w₁)) {gs : List Grid}
    (hs : pullAll s w₁ ps = (.item gs, w')) : pullAll s w (p :: ps) = (.item (g :: gs), w') := by
  simp only [pullAll, h, hs]

theorem pullAll_of_item_of_answer (h : p.pull s w = (.item g, w₁))
    (hs : pullAll s w₁ ps = (e.answer, w')) : pullAll s w (p :: ps) = (e.answer, w') := by
  rw [pullAll, h]
  simp only [hs]
  unfold Stop.answer
  cases e.failure? <;> rfl

/-! ## Deriving -/

variable {name : Value} {time : Option Instant} {inputs : List Value} {gs : List Grid}
  {f : Failure}

theorem derive_of_ok (h : rule.derive name time inputs gs = .ok g) :
    derive w key name rule time inputs gs =
      (.item g, (w.modify key fun slot => { slot with timestamp := time }).record (.applied key))
    := by
  unfold Rule.derive at h
  unfold derive
  cases hc : checkShapes name inputs (gs.map (·.shape)) with
  | error f => simp [hc] at h
  | ok _ =>
    simp only [hc] at h
    simp only [h]

theorem derive_of_error (h : rule.derive name time inputs gs = .error f) :
    (derive w key name rule time inputs gs).1 = .failed f := by
  unfold Rule.derive at h
  unfold derive
  cases hc : checkShapes name inputs (gs.map (·.shape)) with
  | error f' =>
    simp only [hc] at h
    cases h
    rfl
  | ok _ =>
    simp only [hc] at h
    simp only [h]

/-! ## One pull -/

section
variable {name : String} {window : Window}

/-- What the pull of a raw producer relies on. -/
theorem steady_raw (h : Steady s (raw key name window).nodes w) : w.HasSlot key ∧
    (w.slot key).Ready s ∧ (Cursor.mk window (w.slot key).position).InCalendar := by
  rw [nodes_raw] at h
  exact ⟨h.placed (raw key name window) (List.mem_singleton_self _),
    h.ready (raw key name window) (List.mem_singleton_self _),
    h.inCalendar ⟨key, name, window⟩ (by simp [leaf?])⟩

private theorem raw_of_ok (h : Steady s (raw key name window).nodes w)
    (hg : (raw key name window).eval s w 0 = .ok g) :
    ∃ w', (raw key name window).pull s w = (.item g, w') ∧
      Advanced s (raw key name window).nodes w w' ∧
      (raw key name window).timestamp w' = (raw key name window).time w 0 := by
  obtain ⟨hs, hr, hc⟩ := steady_raw h
  obtain ⟨t, ht, hread⟩ := eval_raw_eq_ok.1 hg
  obtain ⟨u, hu⟩ := Option.isSome_iff_exists.1 (hc 0 t ht)
  obtain ⟨w', hn, hr', htime, hpos⟩ :
      ∃ w', readNext s (w.record (.pulled key)) key name window = (.item g, w') ∧ _ :=
    readNext_of_ok (w := w.record (.pulled key)) hs hr ht hu hread
  refine ⟨w', by rw [pull_raw hr.failure, hn, settle], ⟨fun q hq => ?_, fun l hl => ?_⟩, ?_⟩
  · rw [nodes_raw, List.mem_singleton] at hq
    exact hq ▸ hr'
  · obtain rfl : ⟨key, name, window⟩ = l := by simpa [leaf?, eq_comm] using hl
    obtain ⟨-, rfl⟩ := Cursor.recordTime?_zero.1 ht
    change (((w'.slot key).position).micros : Int) = _
    rw [hpos]
    exact Instant.shift?_eq_some.1 hu
  · rw [time, firstLeaf, ht]
    exact htime

private theorem raw_of_error (h : Steady s (raw key name window).nodes w)
    (he : (raw key name window).eval s w 0 = .error e) :
    ((raw key name window).pull s w).1 = e.answer := by
  obtain ⟨hs, hr, hc⟩ := steady_raw h
  rw [pull_raw hr.failure, settle_fst]
  obtain ⟨ht, rfl⟩ | ⟨t, f, ht, hread, rfl⟩ := eval_raw_eq_error.1 he
  · have hn : readNext s (w.record (.pulled key)) key name window = _ := readNext_of_none ht
    rw [hn]
    rfl
  · obtain ⟨u, hu⟩ := Option.isSome_iff_exists.1 (hc 0 t ht)
    exact readNext_of_error (w := w.record (.pulled key)) hs hr ht hu hread

end

/-- What the inputs of a combined producer have moved on, the producer moves on as a whole. -/
private theorem advanced_combined (h : Steady s (combined key name rule first others).nodes w)
    (ha : Advanced s (nodesAll (first :: others)) w w₁) (hn : w₁.slots.size = w.slots.size)
    (hkey : w₁.slot key = w.slot key) :
    Advanced s (combined key name rule first others).nodes w
      ((w₁.modify key fun slot => { slot with timestamp := time }).record (.applied key)) := by
  obtain ⟨hplaced, hr, hkeys, -⟩ := h.combined
  have hs : w₁.HasSlot key := (World.hasSlot_congr hn).2 hplaced
  rw [nodes_combined]
  have hroot : Advanced s [combined key name rule first others] w
      ((w₁.modify key fun slot => { slot with timestamp := time }).record (.applied key)) := by
    refine ⟨fun q hq => ?_, fun l hl => by simp [leaf?] at hl⟩
    rw [List.mem_singleton] at hq
    subst hq
    change (((w₁.modify key _).record _).slot key).Ready s
    rw [World.slot_record, World.slot_modify_self hs, hkey]
    exact ⟨hr.failure, hr.fileTime, hr.file⟩
  exact hroot.append (ha.of_slot_right fun k hk => World.slot_modify_of_ne fun e => hkeys (e ▸ hk))

/-- After the first of several producers was pulled, the others stand as they did before. -/
theorem rest_of_pull (h : Steady s (p.nodes ++ nodesAll ps) w) {r : Pull Grid}
    (hp : p.pull s w = (r, w₁)) : (∀ k ∈ keysAll ps, w₁.slot k = w.slot k) ∧
      Steady s (nodesAll ps) w₁ ∧ evalAll s w₁ 0 ps = evalAll s w 0 ps := by
  have m := p.pull_moves (s := s) (w := w)
  rw [hp] at m
  have hsl : ∀ k ∈ keysAll ps, w₁.slot k = w.slot k := fun k hk => by
    have hsl := slot_pull_of_not_mem (s := s) (w := w) fun hk' : k ∈ p.keys => h.disjoint hk' hk
    rwa [hp] at hsl
  exact ⟨hsl, h.right.of_slot m.size_eq hsl, evalAll_congr fun l hl => by rw [cursor_eq hsl hl]⟩

private theorem pull_aux :
    (∀ (p : Producer) (w : World), Steady s p.nodes w →
      (∀ g, p.eval s w 0 = .ok g → ∃ w', p.pull s w = (.item g, w') ∧
        Advanced s p.nodes w w' ∧ p.timestamp w' = p.time w 0) ∧
      ∀ e, p.eval s w 0 = .error e → (p.pull s w).1 = e.answer) ∧
    ∀ (ps : List Producer) (w : World), Steady s (nodesAll ps) w →
      (∀ gs, evalAll s w 0 ps = .ok gs → ∃ w', pullAll s w ps = (.item gs, w') ∧
        Advanced s (nodesAll ps) w w' ∧ ∀ p ∈ ps.head?, p.timestamp w' = p.time w 0) ∧
      ∀ e, evalAll s w 0 ps = .error e → (pullAll s w ps).1 = e.answer := by
  refine forest_induction ?raw ?combined ?nil ?cons
  case raw =>
    exact fun key name window w h => ⟨fun g => raw_of_ok h, fun e => raw_of_error h⟩
  case combined =>
    intro key name rule first others ih w h
    obtain ⟨hplaced, hr, hkeys, hin⟩ := h.combined
    obtain ⟨ihok, iherr⟩ := ih _ (hin (.pulled key))
    rw [evalAll_record] at ihok iherr
    rw [pull_combined hr.failure]
    refine ⟨fun g hg => ?_, fun e he => ?_⟩
    · obtain ⟨gs, hgs, hd⟩ := eval_combined_eq_ok.1 hg
      obtain ⟨w₁, hp, ha, htime⟩ := ihok gs hgs
      have hn : w₁.slots.size = w.slots.size := by
        have m := pullAll_moves (s := s) (w := w.record (.pulled key)) (first :: others)
        rw [hp] at m
        exact m.size_eq
      have hkey : w₁.slot key = w.slot key := by
        have hsl := slot_pullAll_of_not_mem (s := s) (w := w.record (.pulled key)) hkeys
        rwa [hp] at hsl
      have ht : first.timestamp w₁ = first.time w 0 := htime first rfl
      rw [hp, conclude, ht, derive_of_ok hd, settle]
      refine ⟨_, rfl, advanced_combined h (ha.of_slot_left fun _ _ => rfl) hn hkey, ?_⟩
      change (((w₁.modify key _).record _).slot key).timestamp = _
      rw [World.slot_record, World.slot_modify_self ((World.hasSlot_congr hn).2 hplaced)]
      rfl
    · rw [settle_fst]
      obtain ⟨e', he', rfl⟩ | ⟨gs, f, hgs, hd, rfl⟩ := eval_combined_eq_error.1 he
      · rw [Prod.fst_eq_iff.1 (iherr e' he'), conclude_answer]
        rfl
      · obtain ⟨w₁, hp, -, htime⟩ := ihok gs hgs
        have ht : first.timestamp w₁ = first.time w 0 := htime first rfl
        rw [hp, conclude, ht, derive_of_error hd]
        rfl
  case nil =>
    intro w _
    refine ⟨fun gs h => ?_, fun e h => ?_⟩
    · cases evalAll_nil ▸ h
      exact ⟨w, pullAll_nil, ⟨by simp, by simp⟩, by simp⟩
    · rw [evalAll_nil] at h
      cases h
  case cons =>
    intro p ps ihp ihps w h
    rw [nodesAll_cons] at h ⊢
    obtain ⟨ihok, iherr⟩ := ihp w h.left
    refine ⟨fun gs hgs => ?_, fun e he => ?_⟩
    · obtain ⟨g, gs', hg, hgs', rfl⟩ := evalAll_cons_eq_ok.1 hgs
      obtain ⟨w₁, hp, ha, htime⟩ := ihok g hg
      obtain ⟨hsl, hst, hev⟩ := rest_of_pull h hp
      obtain ⟨w₂, hps, ha', -⟩ := (ihps w₁ hst).1 gs' (hev.trans hgs')
      have hsl' : ∀ k ∈ p.keys, w₂.slot k = w₁.slot k := fun k hk => by
        have hk' : k ∉ keysAll ps := h.disjoint hk
        have hsl := slot_pullAll_of_not_mem (s := s) (w := w₁) hk'
        rwa [hps] at hsl
      refine ⟨w₂, pullAll_of_item hp hps, (ha.of_slot_right hsl').append
        (ha'.of_slot_left hsl), fun q hq => ?_⟩
      obtain rfl : p = q := by simpa using hq
      rw [timestamp, hsl' _ p.key_mem_keys]
      exact htime
    · rcases evalAll_cons_eq_error.1 he with he | ⟨g, hg, he⟩
      · rw [pullAll_of_answer (Prod.fst_eq_iff.1 (iherr e he))]
      · obtain ⟨w₁, hp, -, -⟩ := ihok g hg
        obtain ⟨-, hst, hev⟩ := rest_of_pull h hp
        have hps := Prod.fst_eq_iff.1 ((ihps w₁ hst).2 e (hev.trans he))
        rw [pullAll_of_item_of_answer hp hps]

/-- A pull of a tree that has a grid ahead gives it and moves on. -/
theorem pull_of_ok (h : Steady s p.nodes w) (hg : p.eval s w 0 = .ok g) :
    ∃ w', p.pull s w = (.item g, w') ∧ Steady s p.nodes w' ∧ p.Shifted 1 w w' := by
  obtain ⟨w', hp, ha, -⟩ := (pull_aux.1 p w h).1 g hg
  have m := p.pull_moves (s := s) (w := w)
  rw [hp] at m
  exact ⟨w', hp, ha.steady h m.size_eq, ha.shifted⟩

theorem pull_of_error (h : Steady s p.nodes w) (he : p.eval s w 0 = .error e) :
    (p.pull s w).1 = e.answer :=
  (pull_aux.1 p w h).2 e he

theorem pullAll_of_ok (h : Steady s (nodesAll ps) w) (hg : evalAll s w 0 ps = .ok gs) :
    (pullAll s w ps).1 = .item gs := by
  obtain ⟨w', hp, -⟩ := (pull_aux.2 ps w h).1 gs hg
  rw [hp]

theorem pullAll_of_error (h : Steady s (nodesAll ps) w) (he : evalAll s w 0 ps = .error e) :
    (pullAll s w ps).1 = e.answer :=
  (pull_aux.2 ps w h).2 e he

/-- Induction along the pull of a tree: over the inputs that are pulled one after the other, each in
the world that the one before leaves, up to the first that gives no grid. -/
theorem pull_induction {P : Producer → World → Prop} {Q : List Producer → World → Prop}
    (raw : ∀ key name window w, Steady s (raw key name window).nodes w →
      P (raw key name window) w)
    (combined : ∀ key name rule first others w,
      Steady s (combined key name rule first others).nodes w →
      Q (first :: others) (w.record (.pulled key)) → P (combined key name rule first others) w)
    (nil : ∀ w, Q [] w)
    (stop : ∀ (p : Producer) ps w w₁ e, Steady s (p.nodes ++ nodesAll ps) w →
      p.eval s w 0 = .error e → p.pull s w = (e.answer, w₁) → P p w → Q (p :: ps) w)
    (cons : ∀ (p : Producer) ps w w₁ g, Steady s (p.nodes ++ nodesAll ps) w →
      p.eval s w 0 = .ok g → p.pull s w = (.item g, w₁) →
      (∀ k ∈ keysAll ps, w₁.slot k = w.slot k) → P p w → Q ps w₁ → Q (p :: ps) w) :
    (∀ p w, Steady s p.nodes w → P p w) ∧ ∀ ps w, Steady s (nodesAll ps) w → Q ps w := by
  refine forest_induction ?_ ?_ ?_ ?_
  · exact fun key name window w h => raw key name window w h
  · intro key name rule first others ih w h
    exact combined key name rule first others w h (ih _ (h.combined.2.2.2 (.pulled key)))
  · exact fun w _ => nil w
  · intro p ps ihp ihps w h
    rw [nodesAll_cons] at h
    cases hev : p.eval s w 0 with
    | error e =>
      exact stop p ps w _ e h hev (Prod.fst_eq_iff.1 (pull_of_error h.left hev)) (ihp w h.left)
    | ok g =>
      obtain ⟨w₁, hp, -⟩ := pull_of_ok h.left hev
      obtain ⟨hsl, hst, -⟩ := rest_of_pull h hp
      exact cons p ps w w₁ g h hev hp hsl (ihp w h.left) (ihps w₁ hst)

end Producer

end GridStream
