import GridStream.Proofs.Producer.Consulting
import Mathlib.Data.List.Basic

/-!
# Producers of several variables

A combined producer whose inputs are all raw asks them in order for their records at one time. As
long as no pull has failed, all of them stand at the time of the next record
(`Producer.Reached.readyAt`), whatever was done with other producers in between. The pull gives what
the rule makes of the records if each input has its own (`Producer.pull_of_members`), and otherwise
fails with what the first one fails with that has none (`Producer.pull_of_member_error`).
-/

namespace GridStream

/-- What a raw producer answers at the time of a record: the record, unless the calendar ends
before the record behind it. -/
def Source.answerAt (s : Source) (name : String) (window : Window) (t : Instant) : Attempt Grid :=
  if (t.shift? window.record.micros).isSome then s.recordAt name window t
  else .error .outOfCalendar

theorem Source.answerAt_eq_ok {s : Source} {name : String} {window : Window} {t : Instant}
    {g : Grid} : s.answerAt name window t = .ok g ↔
      (∃ u, t.shift? window.record.micros = some u) ∧ s.recordAt name window t = .ok g := by
  unfold answerAt
  cases t.shift? window.record.micros <;> simp

namespace Leaf

/-- The raw producer that a leaf is. -/
def producer (l : Leaf) : Producer := .raw l.key l.name l.window

/-- The record at a time as the leaf asks for it in the file that it holds. -/
def asked? (l : Leaf) (w : World) (t : Instant) : Option (Nat × String × Int) :=
  (w.slot l.key).handle.map fun h => (h.id, l.name, l.window.recordIndex t)

/-- A leaf that can be pulled for its record at a time. -/
structure StandsAt (l : Leaf) (s : Source) (t : Instant) (w : World) : Prop where
  hasSlot : w.HasSlot l.key
  ready : (w.slot l.key).Ready s
  position : (w.slot l.key).position = t

/-- A leaf that has given its record at a time: it stands at the record behind and holds the file
that covers the time. -/
structure Passed (l : Leaf) (s : Source) (t : Instant) (w : World) : Prop where
  next : ∃ u, t.shift? l.window.record.micros = some u ∧ l.StandsAt s u w
  file : ∃ h, (w.slot l.key).handle = some h ∧ l.window.fileStart? t = some h.start

variable {l : Leaf} {s : Source} {w w' : World} {t : Instant} {g : Grid} {f : Failure}

theorem asked?_congr (hs : w'.slot l.key = w.slot l.key) : l.asked? w' t = l.asked? w t := by
  rw [asked?, asked?, hs]

theorem StandsAt.congr (h : l.StandsAt s t w) (hn : w.slots.size ≤ w'.slots.size)
    (hs : w'.slot l.key = w.slot l.key) : l.StandsAt s t w' where
  hasSlot := Nat.lt_of_lt_of_le h.hasSlot hn
  ready := hs ▸ h.ready
  position := hs ▸ h.position

theorem Passed.congr (h : l.Passed s t w) (hn : w.slots.size ≤ w'.slots.size)
    (hs : w'.slot l.key = w.slot l.key) : l.Passed s t w' where
  next :=
    let ⟨u, hu, hl⟩ := h.next
    ⟨u, hu, hl.congr hn hs⟩
  file := hs ▸ h.file

theorem StandsAt.recordTime? (h : l.StandsAt s t w) (ht : t < l.window.stop) :
    (l.cursor w).recordTime? 0 = some t := by
  refine Cursor.recordTime?_zero.2 ⟨?_, h.position.symm⟩
  rw [Cursor.exhausted_iff, cursor, h.position]
  exact Nat.not_le.2 (Instant.lt_iff.1 ht)

theorem StandsAt.close {p : Producer} (h : l.StandsAt s t w) : l.StandsAt s t (p.close w) where
  hasSlot := (World.hasSlot_congr Producer.size_close).2 h.hasSlot
  ready := Producer.ready_close h.ready
  position := Producer.position_close.trans h.position

theorem StandsAt.settle {p : Producer} {r : Pull Grid × World} (h : l.StandsAt s t r.2)
    (hp : ∀ f, (p.settle r).1 ≠ .failed f) : l.StandsAt s t (p.settle r).2 := by
  obtain ⟨_ | _ | f, w⟩ := r
  · exact h
  · exact h.close
  · exact absurd rfl (hp f)

end Leaf

namespace Producer

variable {s : Source} {w w' w₁ : World} {key k : Nat} {name : String} {window : Window}
  {t : Instant} {g : Grid} {f : Failure} {l : Leaf} {ls : List Leaf} {grid : Leaf → Grid}

/-! ## One input -/

/-- A record is asked for in the file that is held afterwards. -/
theorem reads_of_readRecordAt {held : Handle}
    (h : readRecordAt s w key name window t = (.item g, w'))
    (hheld : (w'.slot key).handle = some held) :
    w'.reads = (held.id, name, window.recordIndex t) :: w.reads := by
  unfold readRecordAt at h
  split at h
  · cases h
  · next start _ =>
    have hreads : (enter s w key name start).2.reads = w.reads := reads_enter
    split at h
    · cases h
    · next w₁ he =>
      rw [he] at hreads
      have hslot : ((w₁.readHeld key name (window.recordIndex t)).2.slot key) = w₁.slot key :=
        slot_readHeld
      dsimp only at h
      split at h
      · cases h
      · next w₂ hr =>
        cases h
        rw [hr] at hslot
        rw [World.slot_modify_congr Slot.handle rfl, hslot] at hheld
        rw [World.readHeld, hheld] at hr
        obtain ⟨-, rfl⟩ := Prod.mk.inj hr
        exact congrArg (_ :: ·) hreads

/-- A leaf is asked, and asks no other, whatever comes of it. -/
theorem steps_pull_producer (h : l.StandsAt s t w) :
    (l.producer.pull s w).2.steps = w.steps ++ [.pulled l.key] := by
  rw [Leaf.producer, pull_raw h.ready.failure, steps_settle, steps_readNext]
  exact World.steps_record_of_isStep rfl

/-- A leaf that has its record gives it, from the file that it holds then. -/
theorem pull_of_answer (h : l.StandsAt s t w) (ht : t < l.window.stop)
    (hg : s.answerAt l.name l.window t = .ok g) : ∃ w', l.producer.pull s w = (.item g, w') ∧
      l.Passed s t w' ∧ w'.reads = (l.asked? w' t).toList ++ w.reads := by
  obtain ⟨⟨u, hu⟩, hread⟩ := Source.answerAt_eq_ok.1 hg
  obtain ⟨w₁, hb, hp⟩ := pull_of_shift h.hasSlot h.ready (h.recordTime? ht) hu
  obtain ⟨start, file, hstart, -, -⟩ := recordAt_eq_ok.1 hread
  obtain ⟨w₂, held, hw₂, hslot, hfile⟩ := readRecordAt_of_ok hb.hasSlot hb.ready hread
  have htime := ((visited_readRecordAt hb.hasSlot hstart).2 g (by rw [hw₂])).1
  rw [hw₂, hslot] at htime
  cases htime
  have hheld : (w₂.slot l.key).handle = some held := by rw [hslot]
  have hpull : l.producer.pull s w = (.item g, w₂) := by rw [Leaf.producer, hp, hw₂, settle]
  refine ⟨w₂, hpull, ⟨⟨u, hu, ?_, ?_, ?_⟩, held, hheld, hstart⟩, ?_⟩
  · exact World.hasSlot_of_handle hheld
  · rw [hslot]
    refine ⟨hb.ready.failure, rfl, fun h e => ?_⟩
    cases e
    exact hfile
  · rw [hslot, ← hb.position]
  · rw [reads_of_readRecordAt hw₂ hheld, hb.reads, Leaf.asked?, hheld]
    rfl

theorem pull_of_answer_error (h : l.StandsAt s t w) (ht : t < l.window.stop)
    (hf : s.answerAt l.name l.window t = .error f) : (l.producer.pull s w).1 = .failed f := by
  unfold Source.answerAt at hf
  split at hf
  · next hsome =>
    obtain ⟨u, hu⟩ := Option.isSome_iff_exists.1 hsome
    obtain ⟨w₁, hb, hp⟩ := pull_of_shift h.hasSlot h.ready (h.recordTime? ht) hu
    rw [Leaf.producer, hp, settle_fst]
    exact readRecordAt_of_error hb.hasSlot hb.ready hf
  · next hnone =>
    cases hf
    have ha : (Cursor.mk l.window ((w.record (.pulled l.key)).slot l.key).position).advance = _ :=
      (Cursor.advance_eq_outOfCalendar (c := l.cursor w)).2
        ⟨t, h.recordTime? ht, Option.not_isSome_iff_eq_none.1 hnone⟩
    rw [Leaf.producer, pull_raw h.ready.failure, settle_fst, readNext, ha]

/-! ## Several inputs -/

@[simp] theorem keysAll_producers : keysAll (ls.map Leaf.producer) = ls.map Leaf.key := by
  induction ls with
  | nil => rfl
  | cons l ls ih =>
    rw [List.map_cons, keysAll_cons, ih, Leaf.producer, keys_raw]
    rfl

@[simp] theorem leavesAll_producers : leavesAll (ls.map Leaf.producer) = ls := by
  induction ls with
  | nil => rfl
  | cons l ls ih =>
    rw [List.map_cons, leavesAll_cons, ih, Leaf.producer, leaves_raw]
    rfl

/-- What happens between two worlds if leaves give their records at a time: they are asked one after
the other, and each asks for its record in the file that it holds. -/
structure PassedAll (s : Source) (t : Instant) (ls : List Leaf) (w w' : World) : Prop where
  passed : ∀ l ∈ ls, l.Passed s t w'
  reads : w'.reads = (ls.filterMap (·.asked? w' t)).reverse ++ w.reads
  steps : w'.steps = w.steps ++ ls.map fun l => .pulled l.key

theorem size_pull {p : Producer} : (p.pull s w).2.slots.size = w.slots.size :=
  p.pull_moves.size_eq

/-- After the first of several leaves was asked, the others stand where they stood. -/
theorem standsAt_pull (hn : l.key ∉ ls.map Leaf.key) (hs : ∀ m ∈ ls, m.StandsAt s t w) :
    ∀ m ∈ ls, m.StandsAt s t (l.producer.pull s w).2 := fun m hm => by
  refine (hs m hm).congr (Nat.le_of_eq size_pull.symm) (slot_pull_of_not_mem ?_)
  rw [Leaf.producer, keys_raw, List.mem_singleton]
  exact fun he => hn (he ▸ List.mem_map_of_mem hm)

theorem PassedAll.cons {r : Pull (List Grid)} (hn : l.key ∉ ls.map Leaf.key)
    (hl : l.Passed s t w₁) (hreads : w₁.reads = (l.asked? w₁ t).toList ++ w.reads)
    (hsteps : w₁.steps = w.steps ++ [.pulled l.key])
    (hp : pullAll s w₁ (ls.map Leaf.producer) = (r, w')) (h : PassedAll s t ls w₁ w') :
    PassedAll s t (l :: ls) w w' := by
  have hslot : w'.slot l.key = w₁.slot l.key := by
    have hs : (pullAll s w₁ (ls.map Leaf.producer)).2.slot l.key = w₁.slot l.key :=
      slot_pullAll_of_not_mem (by rwa [keysAll_producers])
    rwa [hp] at hs
  have hsize : w'.slots.size = w₁.slots.size := by
    have m := pullAll_moves (s := s) (w := w₁) (ls.map Leaf.producer)
    rw [hp] at m
    exact m.size_eq
  refine ⟨List.forall_mem_cons.2 ⟨hl.congr (Nat.le_of_eq hsize.symm) hslot, h.passed⟩, ?_, ?_⟩
  · rw [h.reads, hreads, ← Leaf.asked?_congr hslot, List.filterMap_cons]
    cases l.asked? w' t <;> simp
  · rw [h.steps, hsteps, List.append_assoc]
    rfl

/-- Leaves that all have their records give them in order. -/
theorem pullAll_of_answers (hn : (ls.map Leaf.key).Nodup) (hs : ∀ l ∈ ls, l.StandsAt s t w)
    (ht : ∀ l ∈ ls, t < l.window.stop)
    (hg : ∀ l ∈ ls, s.answerAt l.name l.window t = .ok (grid l)) :
    ∃ w', pullAll s w (ls.map Leaf.producer) = (.item (ls.map grid), w') ∧
      PassedAll s t ls w w' := by
  induction ls generalizing w with
  | nil => exact ⟨w, pullAll_nil, by simp, rfl, by simp⟩
  | cons l ls ih =>
    rw [List.map_cons, List.nodup_cons] at hn
    rw [List.forall_mem_cons] at hs ht hg
    obtain ⟨w₁, hp, hl, hreads⟩ := pull_of_answer hs.1 ht.1 hg.1
    have hsteps := steps_pull_producer hs.1
    have hrest := standsAt_pull hn.1 hs.2
    rw [hp] at hrest hsteps
    obtain ⟨w₂, hps, h⟩ := ih hn.2 hrest ht.2 hg.2
    exact ⟨w₂, pullAll_of_item hp hps, .cons hn.1 hl hreads hsteps hps h⟩

/-- The first leaf that does not have its record ends the pulling. The leaves behind it are not
asked. -/
theorem pullAll_of_answer_error {before after : List Leaf}
    (hn : ((before ++ l :: after).map Leaf.key).Nodup)
    (hs : ∀ m ∈ before ++ l :: after, m.StandsAt s t w)
    (ht : ∀ m ∈ before ++ l :: after, t < m.window.stop)
    (hg : ∀ m ∈ before, ∃ g, s.answerAt m.name m.window t = .ok g)
    (hf : s.answerAt l.name l.window t = .error f) :
    ∃ w', pullAll s w ((before ++ l :: after).map Leaf.producer) = (.failed f, w') ∧
      w'.steps = w.steps ++ (before ++ [l]).map fun m => .pulled m.key := by
  induction before generalizing w with
  | nil =>
    rw [List.nil_append, List.forall_mem_cons] at hs ht
    have hsteps := steps_pull_producer hs.1
    have hp := Prod.fst_eq_iff.1 (pull_of_answer_error hs.1 ht.1 hf)
    exact ⟨_, pullAll_of_answer (e := ⟨[], some f⟩) hp, hsteps⟩
  | cons m before ih =>
    rw [List.cons_append, List.map_cons, List.nodup_cons] at hn
    rw [List.cons_append, List.forall_mem_cons] at hs ht
    rw [List.forall_mem_cons] at hg
    obtain ⟨g, hg₁⟩ := hg.1
    obtain ⟨w₁, hp, -⟩ := pull_of_answer hs.1 ht.1 hg₁
    have hsteps := steps_pull_producer hs.1
    have hrest := standsAt_pull hn.1 hs.2
    rw [hp] at hrest hsteps
    obtain ⟨w₂, hps, h⟩ := ih hn.2 hrest ht.2 hg.2
    refine ⟨w₂, pullAll_of_item_of_answer (e := ⟨[], some f⟩) hp hps, ?_⟩
    rw [h, hsteps, List.append_assoc]
    rfl

/-! ## What combines them -/

/-- A producer that has not failed and whose leaves can be pulled for their records at a time. -/
structure ReadyAt (p : Producer) (s : Source) (t : Instant) (w : World) : Prop where
  nodup : p.keys.Nodup
  hasSlot : w.HasSlot p.key
  failure : (w.slot p.key).failure = none
  stands : ∀ l ∈ p.leaves, l.StandsAt s t w

namespace ReadyAt

variable {p : Producer}

theorem congr (h : p.ReadyAt s t w) (hn : w.slots.size ≤ w'.slots.size)
    (hs : ∀ k ∈ p.keys, w'.slot k = w.slot k) : p.ReadyAt s t w' where
  nodup := h.nodup
  hasSlot := Nat.lt_of_lt_of_le h.hasSlot hn
  failure := hs _ p.key_mem_keys ▸ h.failure
  stands l hl := (h.stands l hl).congr hn (hs _ (key_mem_of_leaf hl))

theorem close (h : p.ReadyAt s t w) : p.ReadyAt s t (p.close w) where
  nodup := h.nodup
  hasSlot := (World.hasSlot_congr size_close).2 h.hasSlot
  failure := failure_close.trans h.failure
  stands l hl := (h.stands l hl).close

theorem of_fresh (h : p.Fresh w) (hl : ∀ l ∈ p.leaves, (w.slot l.key).position = t) :
    p.ReadyAt s t w where
  nodup := h.nodup
  hasSlot := h.placed _ p.key_mem_keys
  failure := h.failure _ p.key_mem_keys
  stands l hmem := by
    have hk := key_mem_of_leaf hmem
    refine ⟨h.placed _ hk, ⟨h.failure _ hk, ?_, fun held e => ?_⟩, hl l hmem⟩
    · rw [h.fileTime _ hk, h.handle _ hk, Option.map_none]
    · rw [h.handle _ hk] at e
      cases e

end ReadyAt

/-- A combined producer whose inputs are all raw. -/
def ofLeaves (key : Nat) (title : Value) (rule : Rule) (first : Leaf) (others : List Leaf) :
    Producer :=
  .combined key title rule first.producer (others.map Leaf.producer)

variable {title : Value} {rule : Rule} {first : Leaf} {others : List Leaf}

@[simp] theorem leaves_ofLeaves :
    (ofLeaves key title rule first others).leaves = first :: others := by
  rw [ofLeaves, leaves_combined, ← List.map_cons, leavesAll_producers]

theorem keys_ofLeaves :
    (ofLeaves key title rule first others).keys = key :: (first :: others).map Leaf.key := by
  rw [ofLeaves, keys_combined, ← List.map_cons, keysAll_producers]

theorem ReadyAt.key_not_mem (h : (ofLeaves key title rule first others).ReadyAt s t w) :
    key ∉ (first :: others).map Leaf.key := by
  have hnodup := h.nodup
  rw [keys_ofLeaves] at hnodup
  exact (List.nodup_cons.1 hnodup).1

/-- What the pull of the inputs relies on. -/
theorem ReadyAt.inputs (h : (ofLeaves key title rule first others).ReadyAt s t w) (e : Event) :
    ((first :: others).map Leaf.key).Nodup ∧
      ∀ l ∈ first :: others, l.StandsAt s t (w.record e) := by
  have hnodup := h.nodup
  rw [keys_ofLeaves, List.nodup_cons] at hnodup
  refine ⟨hnodup.2, fun l hl => ?_⟩
  rw [← leaves_ofLeaves] at hl
  exact (h.stands l hl).congr (Nat.le_refl _) rfl

theorem pull_ofLeaves (h : (w.slot key).failure = none) :
    (ofLeaves key title rule first others).pull s w =
      settle (ofLeaves key title rule first others)
        (conclude key title rule first.producer (others.map Leaf.producer)
          (pullAll s (w.record (.pulled key)) ((first :: others).map Leaf.producer))) :=
  pull_combined h

/-- If all inputs have their records, the pull comes to what the rule makes of them, in the order of
the inputs. -/
theorem pull_of_members (h : (ofLeaves key title rule first others).ReadyAt s t w)
    (ht : ∀ l ∈ first :: others, t < l.window.stop)
    (hg : ∀ l ∈ first :: others, s.answerAt l.name l.window t = .ok (grid l)) :
    ∃ w₁ time, PassedAll s t (first :: others) (w.record (.pulled key)) w₁ ∧
      (ofLeaves key title rule first others).pull s w =
        settle (ofLeaves key title rule first others)
          (derive w₁ key title rule time ((first :: others).map fun l => .text l.name)
            ((first :: others).map grid)) := by
  obtain ⟨hnodup, hs⟩ := h.inputs (.pulled key)
  obtain ⟨w₁, hp, hpassed⟩ := pullAll_of_answers hnodup hs ht hg
  refine ⟨w₁, first.producer.timestamp w₁, hpassed, ?_⟩
  have hfailure : (w.slot key).failure = none := h.failure
  have hnames : (first.producer :: others.map Leaf.producer).map Producer.name =
      (first :: others).map fun l => .text l.name := by
    rw [← List.map_cons, List.map_map]
    rfl
  rw [pull_ofLeaves hfailure, hp, conclude, hnames]

/-- What has happened between two worlds if a producer of raw ones gives a grid: it was asked and so
was each of its inputs, once and in order, and its rule was applied; each input has asked for its
record in the file that it holds, and has moved on. -/
structure Delivered (p : Producer) (s : Source) (t : Instant) (w w' : World) : Prop where
  steps : w'.steps =
    w.steps ++ .pulled p.key :: (p.leaves.map fun l => .pulled l.key) ++ [.applied p.key]
  reads : w'.reads = (p.leaves.filterMap (·.asked? w' t)).reverse ++ w.reads
  passed : ∀ l ∈ p.leaves, l.Passed s t w'

/-- A rule that makes a grid of the records delivers it. -/
theorem pull_of_derive {total : Grid} (h : (ofLeaves key title rule first others).ReadyAt s t w)
    (ht : ∀ l ∈ first :: others, t < l.window.stop)
    (hg : ∀ l ∈ first :: others, s.answerAt l.name l.window t = .ok (grid l))
    (hd : ∀ time, rule.derive title time ((first :: others).map fun l => .text l.name)
      ((first :: others).map grid) = .ok total) :
    ∃ w', (ofLeaves key title rule first others).pull s w = (.item total, w') ∧
      (ofLeaves key title rule first others).Delivered s t w w' := by
  obtain ⟨w₁, time, hpassed, hpull⟩ := pull_of_members h ht hg
  rw [derive_of_ok (hd time), settle] at hpull
  have hslot : ∀ l ∈ first :: others, ((w₁.modify key fun slot =>
      { slot with timestamp := time }).record (.applied key)).slot l.key = w₁.slot l.key :=
    fun l hl => World.slot_modify_of_ne fun e => h.key_not_mem (e ▸ List.mem_map_of_mem hl)
  refine ⟨_, hpull, ?_, ?_, fun l hl => ?_⟩
  · have hsteps := hpassed.steps
    rw [World.steps_record_of_isStep rfl, List.append_assoc] at hsteps
    rw [World.steps_record_of_isStep rfl, World.steps_modify, hsteps, leaves_ofLeaves]
    rfl
  · rw [leaves_ofLeaves, List.filterMap_congr fun l hl => Leaf.asked?_congr (hslot l hl)]
    exact hpassed.reads
  · rw [leaves_ofLeaves] at hl
    refine (hpassed.passed l hl).congr (Nat.le_of_eq ?_) (hslot l hl)
    exact World.size_modify.symm

/-- A pull that fails halts the producer, and closing the files is no step. -/
theorem exists_halted {p : Producer} (hs : w.HasSlot p.key)
    (h : p.pull s w = settle p (.failed f, w₁)) :
    ∃ w', p.pull s w = (.failed f, w') ∧ p.halted w' = true ∧ w'.steps = w₁.steps := by
  have hsteps : (settle p (.failed f, w₁)).2.steps = w₁.steps := steps_settle
  exact ⟨_, h, Option.isSome_iff_ne_none.2 (failure_of_failed hs h), hsteps⟩

/-- The first input that does not have its record makes the pull fail with what it fails with. The
inputs behind it are not asked. -/
theorem pull_of_member_error {before after : List Leaf}
    (h : (ofLeaves key title rule first others).ReadyAt s t w)
    (hl : first :: others = before ++ l :: after)
    (ht : ∀ l ∈ first :: others, t < l.window.stop)
    (hg : ∀ m ∈ before, ∃ g, s.answerAt m.name m.window t = .ok g)
    (hf : s.answerAt l.name l.window t = .error f) :
    ∃ w', (ofLeaves key title rule first others).pull s w = (.failed f, w') ∧
      (ofLeaves key title rule first others).halted w' = true ∧
      w'.steps = w.steps ++ .pulled key :: (before ++ [l]).map fun m => .pulled m.key := by
  obtain ⟨hnodup, hs⟩ := h.inputs (.pulled key)
  rw [hl] at hnodup hs ht
  obtain ⟨w₁, hp, hsteps⟩ := pullAll_of_answer_error hnodup hs ht hg hf
  have hfailure : (w.slot key).failure = none := h.failure
  have hpull : (ofLeaves key title rule first others).pull s w = _ := pull_ofLeaves hfailure
  rw [hl, hp, conclude] at hpull
  obtain ⟨w', hw', hhalted, hkeep⟩ := exists_halted h.hasSlot hpull
  refine ⟨w', hw', hhalted, ?_⟩
  rw [hkeep, hsteps, World.steps_record_of_isStep rfl, List.append_assoc]
  rfl

/-- Records that differ in shape make the pull fail after all inputs were asked. -/
theorem pull_of_checkShapes (h : (ofLeaves key title rule first others).ReadyAt s t w)
    (ht : ∀ l ∈ first :: others, t < l.window.stop)
    (hg : ∀ l ∈ first :: others, s.answerAt l.name l.window t = .ok (grid l))
    (hc : checkShapes title ((first :: others).map fun l => .text l.name)
      (((first :: others).map grid).map (·.shape)) = .error f) :
    ∃ w', (ofLeaves key title rule first others).pull s w = (.failed f, w') ∧
      (ofLeaves key title rule first others).halted w' = true ∧
      w'.steps = w.steps ++ .pulled key :: (first :: others).map fun l => .pulled l.key := by
  obtain ⟨w₁, time, hpassed, hpull⟩ := pull_of_members h ht hg
  have hderive : derive w₁ key title rule time ((first :: others).map fun l => .text l.name)
      ((first :: others).map grid) =
        (.failed f, w₁.modify key fun slot => { slot with timestamp := time }) := by
    simp only [derive, hc]
  rw [hderive] at hpull
  obtain ⟨w', hw', hhalted, hkeep⟩ := exists_halted h.hasSlot hpull
  refine ⟨w', hw', hhalted, ?_⟩
  rw [hkeep, World.steps_modify, hpassed.steps, World.steps_record_of_isStep rfl, List.append_assoc]
  rfl

/-! ## One pull after the other -/

/-- The worlds that are reached by a number of pulls of a producer, none of which failed. In between
the producer may be closed, and anything may be done that does not concern it. -/
inductive Reached (s : Source) (p : Producer) (w : World) : Nat → World → Prop
  | start : Reached s p w 0 w
  | pull {k : Nat} {w₁ : World} (h : Reached s p w k w₁) (hp : ∀ f, (p.pull s w₁).1 ≠ .failed f) :
      Reached s p w (k + 1) (p.pull s w₁).2
  | close {k : Nat} {w₁ : World} (h : Reached s p w k w₁) : Reached s p w k (p.close w₁)
  | others {k : Nat} {w₁ w₂ : World} (h : Reached s p w k w₁)
      (hn : w₁.slots.size ≤ w₂.slots.size) (hs : ∀ key ∈ p.keys, w₂.slot key = w₁.slot key) :
      Reached s p w k w₂

theorem slot_derive_of_ne {time : Option Instant} {inputs : List Value} {gs : List Grid}
    (hk : k ≠ key) : (derive w key title rule time inputs gs).2.slot k = w.slot k := by
  have m : Moves (fun _ _ => False) [key] [] [] w (derive w key title rule time inputs gs).2 :=
    derive_moves (List.mem_singleton_self key)
  exact m.slot_eq (mt List.mem_singleton.1 hk) List.not_mem_nil

theorem size_derive {time : Option Instant} {inputs : List Value} {gs : List Grid} :
    (derive w key title rule time inputs gs).2.slots.size = w.slots.size := by
  have m : Moves (fun _ _ => False) [key] [] [] w (derive w key title rule time inputs gs).2 :=
    derive_moves (List.mem_singleton_self key)
  exact m.size_eq

/-- A pull that does not fail leaves all leaves at the next record. -/
theorem ReadyAt.next {u : Instant} (h : (ofLeaves key title rule first others).ReadyAt s t w)
    (ht : ∀ l ∈ first :: others, t < l.window.stop)
    (hu : ∀ l ∈ first :: others, t.shift? l.window.record.micros = some u)
    (hp : ∀ f, ((ofLeaves key title rule first others).pull s w).1 ≠ .failed f) :
    (ofLeaves key title rule first others).ReadyAt s u
      ((ofLeaves key title rule first others).pull s w).2 := by
  refine ⟨h.nodup, (World.hasSlot_congr size_pull).2 h.hasSlot,
    (failure_pull hp).trans h.failure, fun l hl => ?_⟩
  rw [leaves_ofLeaves] at hl
  have hne : l.key ≠ key := fun e => h.key_not_mem (e ▸ List.mem_map_of_mem hl)
  rcases Attempt.forall_ok_or_first_error (fun l : Leaf => s.answerAt l.name l.window t)
    (first :: others) with hall | ⟨before, m, after, f, hmem, hbefore, hf⟩
  · choose! grid hg using hall
    obtain ⟨w₁, time, hpassed, hpull⟩ := pull_of_members h ht hg
    obtain ⟨v, hv, hstands⟩ := (hpassed.passed l hl).next
    cases hv.symm.trans (hu l hl)
    have hderived : l.StandsAt s u (derive w₁ key title rule time
        ((first :: others).map fun l => .text l.name) ((first :: others).map grid)).2 :=
      hstands.congr (Nat.le_of_eq size_derive.symm) (slot_derive_of_ne hne)
    rw [hpull] at hp ⊢
    exact hderived.settle hp
  · obtain ⟨w₁, hpull, -⟩ := pull_of_member_error h hmem ht hbefore hf
    exact absurd (congrArg Prod.fst hpull) (hp f)

/-- As long as no pull has failed, the leaves stand at the next record of their window. -/
theorem Reached.readyAt (h : (ofLeaves key title rule first others).Reached s w k w')
    (h₀ : (ofLeaves key title rule first others).ReadyAt s window.start w)
    (hwindow : ∀ l ∈ first :: others, l.window = window)
    (ht : (Cursor.atStart window).recordTime? k = some t) :
    (ofLeaves key title rule first others).ReadyAt s t w' := by
  induction h generalizing t with
  | start =>
    obtain ⟨-, rfl⟩ := Cursor.recordTime?_zero.1 ht
    exact h₀
  | pull _ hp ih =>
    obtain ⟨t', ht', hu⟩ := Cursor.exists_recordTime?_of_succ ht
    obtain ⟨-, hstop⟩ := Cursor.recordTime?_eq_some.1 ht'
    refine (ih ht').next (fun l hl => ?_) (fun l hl => ?_) hp
    · rw [hwindow l hl]
      exact hstop
    · rw [hwindow l hl]
      exact hu
  | close _ ih => exact (ih ht).close
  | others _ hn hs ih => exact (ih ht).congr hn hs

end Producer

end GridStream
