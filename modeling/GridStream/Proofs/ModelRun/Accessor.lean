import GridStream.ModelRun
import GridStream.Proofs.Producer.ForeignFailure

/-!
# The producers of a run

However a producer is asked for, what is made is a tree of new producers, each with a slot of its
own behind those that are there, and with every leaf at the start of the window
(`ModelRun.access_created`). Nothing else in the world is changed.
-/

namespace GridStream

/-- A way to ask a run for a producer. -/
inductive Accessor
  /-- By the name of a quantity or a group. -/
  | producer (name : Value)
  /-- By the quantity itself. -/
  | quantity (name : String)
  /-- By a stored variable. -/
  | read (name : String)
  /-- By the members of a group. -/
  | readGroup (group : SpeciesGroup)

/-- The producer that is asked for. -/
def ModelRun.access (run : ModelRun) (w : World) : Accessor → Attempt (Producer × World)
  | .producer name => run.producer w name
  | .quantity name => run.quantity w name
  | .read name => .ok (run.read w name)
  | .readGroup group => run.readGroup w group

/-- The slot of a producer that was never pulled. -/
structure Slot.Unused (slot : Slot) : Prop where
  timestamp : slot.timestamp = none
  failure : slot.failure = none
  handle : slot.handle = none
  fileTime : slot.fileTime = none

namespace World

variable {v w w₁ : World} {k : Nat} {slot : Slot}

theorem slot_addSlot_self : (w.addSlot slot).2.slot w.slots.size = slot := by
  simp [addSlot, World.slot, Array.getD]

theorem slot_addSlot_of_hasSlot (h : w.HasSlot k) : (w.addSlot slot).2.slot k = w.slot k := by
  unfold HasSlot at h
  simp [addSlot, World.slot, Array.getD, h, Nat.lt_succ_of_lt h, Array.getElem_push_lt h]

/-- A world to which slots were added, and nothing else. -/
structure Grown (v w : World) : Prop where
  size : v.slots.size ≤ w.slots.size
  slot : ∀ k, v.HasSlot k → w.slot k = v.slot k
  rest : w.opened = v.opened ∧ w.trace = v.trace ∧ w.progress = v.progress

theorem Grown.hasSlot (h : v.Grown w) (hk : v.HasSlot k) : w.HasSlot k :=
  Nat.lt_of_lt_of_le hk h.size

theorem Grown.trans (h : v.Grown w₁) (h' : w₁.Grown w) : v.Grown w where
  size := Nat.le_trans h.size h'.size
  slot k hk := by rw [h'.slot k (h.hasSlot hk), h.slot k hk]
  rest := ⟨h'.rest.1.trans h.rest.1, h'.rest.2.1.trans h.rest.2.1, h'.rest.2.2.trans h.rest.2.2⟩

theorem grown_addSlot : w.Grown (w.addSlot slot).2 where
  size := by simp [addSlot]
  slot k hk := slot_addSlot_of_hasSlot hk
  rest := ⟨rfl, rfl, rfl⟩

end World

namespace ModelRun

/-- The producers of a list were added to a world one by one, each leaf at the start of the window
of the run. -/
structure Created (run : ModelRun) (v : World) (ns : List Producer) (w : World) : Prop where
  grown : v.Grown w
  nodup : (ns.map Producer.key).Nodup
  placed : ∀ q ∈ ns, v.slots.size ≤ q.key ∧ w.HasSlot q.key
  unused : ∀ q ∈ ns, (w.slot q.key).Unused
  leaf : ∀ l ∈ ns.filterMap Producer.leaf?, l.cursor w = .atStart run.window
  regular : ∀ q ∈ ns, q.Regular

variable {run : ModelRun} {v w w₁ : World} {ns ms : List Producer}

namespace Created

/-- Slots that are added later make no difference. -/
theorem mono (h : run.Created v ns w₁) (hg : w₁.Grown w) : run.Created v ns w where
  grown := h.grown.trans hg
  nodup := h.nodup
  placed q hq := ⟨(h.placed q hq).1, hg.hasSlot (h.placed q hq).2⟩
  unused q hq := hg.slot _ (h.placed q hq).2 ▸ h.unused q hq
  leaf l hl := by
    obtain ⟨q, hq, hk⟩ := List.mem_map.1 (Producer.leafKey_mem hl)
    rw [Leaf.cursor, ← hk, hg.slot _ (h.placed q hq).2, hk]
    exact h.leaf l hl
  regular := h.regular

theorem append (h : run.Created v ns w₁) (h' : run.Created w₁ ms w) :
    run.Created v (ns ++ ms) w := by
  have hm := h.mono h'.grown
  refine ⟨hm.grown, ?_, fun q hq => ?_, fun q hq => ?_, fun l hl => ?_, fun q hq => ?_⟩
  · rw [List.map_append, List.nodup_append]
    refine ⟨h.nodup, h'.nodup, fun a ha b hb e => ?_⟩
    obtain ⟨q, hq, rfl⟩ := List.mem_map.1 ha
    obtain ⟨r, hr, rfl⟩ := List.mem_map.1 hb
    have hlt : q.key < w₁.slots.size := (h.placed q hq).2
    exact absurd (h'.placed r hr).1 (by omega)
  · rcases List.mem_append.1 hq with hq | hq
    · exact hm.placed q hq
    · exact ⟨Nat.le_trans h.grown.size (h'.placed q hq).1, (h'.placed q hq).2⟩
  · exact (List.mem_append.1 hq).elim (hm.unused q) (h'.unused q)
  · rw [List.filterMap_append] at hl
    exact (List.mem_append.1 hl).elim (hm.leaf l) (h'.leaf l)
  · exact (List.mem_append.1 hq).elim (h.regular q) (h'.regular q)

/-- A producer that is new can be pulled. -/
theorem fresh {p : Producer} (h : run.Created v p.nodes w) : p.Fresh w := by
  have hkey : ∀ k ∈ p.keys, w.HasSlot k ∧ (w.slot k).Unused := fun k hk => by
    obtain ⟨q, hq, rfl⟩ := List.mem_map.1 hk
    exact ⟨(h.placed q hq).2, h.unused q hq⟩
  exact ⟨h.nodup, fun k hk => (hkey k hk).1, fun k hk => (hkey k hk).2.failure,
    fun k hk => (hkey k hk).2.handle, fun k hk => (hkey k hk).2.fileTime⟩

end Created

theorem read_created (run : ModelRun) (w : World) (name : String) :
    run.Created w (run.read w name).1.nodes (run.read w name).2 := by
  have hself : (run.read w name).2.slot w.slots.size = { position := run.window.start } :=
    World.slot_addSlot_self
  have hn : (run.read w name).1.nodes = [.raw w.slots.size name run.window] :=
    Producer.nodes_raw
  rw [hn]
  refine ⟨World.grown_addSlot, by simp, fun q hq => ?_, fun q hq => ?_, fun l hl => ?_,
    fun q hq => ?_⟩
  · rw [List.mem_singleton] at hq
    subst hq
    exact ⟨Nat.le_refl _, by simp [read, World.addRaw, World.addSlot, World.HasSlot]⟩
  · rw [List.mem_singleton] at hq
    subst hq
    rw [Producer.key_raw, hself]
    exact ⟨rfl, rfl, rfl, rfl⟩
  · obtain rfl : l = ⟨w.slots.size, name, run.window⟩ := by simpa [Producer.leaf?] using hl
    rw [Leaf.cursor, hself]
    rfl
  · rw [List.mem_singleton] at hq
    exact hq ▸ trivial

theorem readAll_created (run : ModelRun) (w : World) (names : List String) :
    run.Created w (Producer.nodesAll (run.readAll w names).1) (run.readAll w names).2 := by
  induction names generalizing w with
  | nil =>
    rw [readAll, Producer.nodesAll_nil]
    refine ⟨⟨Nat.le_refl _, fun _ _ => rfl, rfl, rfl, rfl⟩, by simp, ?_, ?_, ?_, ?_⟩
    all_goals simp
  | cons name names ih =>
    rw [readAll, Producer.nodesAll_cons]
    exact (run.read_created w name).append (ih _)

/-- A producer is joined from others that were made before it. -/
theorem join_created {name : Value} {rule : Rule} {first : Producer} {others : List Producer}
    (h : run.Created v (Producer.nodesAll (first :: others)) w)
    (hr : (Producer.combined w.slots.size name rule first others).Regular) :
    run.Created v (w.join name rule first others).1.nodes (w.join name rule first others).2 := by
  have hg : w.Grown (w.join name rule first others).2 := World.grown_addSlot
  have hself : (w.join name rule first others).2.slot w.slots.size = default :=
    World.slot_addSlot_self
  have hm := h.mono hg
  have hn : (w.join name rule first others).1.nodes =
      .combined w.slots.size name rule first others :: Producer.nodesAll (first :: others) :=
    Producer.nodes_combined
  rw [hn]
  refine ⟨hm.grown, List.nodup_cons.2 ⟨fun hk => ?_, h.nodup⟩, fun q hq => ?_, fun q hq => ?_,
    hm.leaf, fun q hq => ?_⟩
  · obtain ⟨q, hq, hk⟩ := List.mem_map.1 hk
    have hlt : q.key < w.slots.size := (h.placed q hq).2
    rw [Producer.key_combined] at hk
    omega
  · rcases List.mem_cons.1 hq with rfl | hq
    · exact ⟨h.grown.size, by simp [World.join, World.addSlot, World.HasSlot]⟩
    · exact hm.placed q hq
  · rcases List.mem_cons.1 hq with rfl | hq
    · rw [Producer.key_combined, hself]
      exact ⟨rfl, rfl, rfl, rfl⟩
    · exact hm.unused q hq
  · rcases List.mem_cons.1 hq with rfl | hq
    · exact hr
    · exact h.regular q hq

end ModelRun

/-! ## The catalogue -/

/-- Whether all tables of a formula can be looked up in. -/
def Formula.Numeric : Formula → Prop
  | .stored _ => True
  | .derived _ _ left right => left.Numeric ∧ right.Numeric
  | .remapped _ table _ => table.Numeric

theorem LookupTable.numeric_of_forall {t : LookupTable} (h : ∀ e ∈ t.entries, e.cell?.isSome) :
    t.Numeric :=
  Attempt.isSome_mapM_array_iff.2 h

namespace LandUse

theorem particleTable_numeric : particleTable.Numeric :=
  LookupTable.numeric_of_forall fun e he => by
    obtain ⟨c, -, rfl⟩ := Array.mem_map.1 he
    cases c <;> rfl

theorem gasTable_numeric : gasTable.Numeric :=
  LookupTable.numeric_of_forall fun e he => by
    obtain ⟨c, -, rfl⟩ := Array.mem_map.1 he
    cases c <;> rfl

theorem roughnessTable_numeric : roughnessTable.Numeric :=
  LookupTable.numeric_of_forall fun e he => by
    obtain ⟨x, -, rfl⟩ := Array.mem_map.1 he
    rfl

end LandUse

theorem Catalog.numeric_of_mem {q : Quantity} (h : q ∈ quantities) : q.formula.Numeric := by
  simp only [quantities, List.mem_cons, List.not_mem_nil, or_false] at h
  rcases h with rfl | rfl | rfl | rfl | rfl | rfl | rfl | rfl | rfl | rfl | rfl | rfl | rfl | rfl |
    rfl | rfl | rfl | rfl | rfl | rfl | rfl
  all_goals first
    | exact trivial
    | exact ⟨trivial, trivial⟩
    | exact ⟨trivial, trivial, trivial⟩
    | exact LandUse.particleTable_numeric
    | exact LandUse.gasTable_numeric
    | exact LandUse.roughnessTable_numeric

theorem Catalog.mem_of_find? {name : Value} {q : Quantity} (h : find? name = some q) :
    q ∈ quantities := by
  cases name with
  | text s =>
    unfold find? at h
    exact List.mem_of_find?_eq_some h
  | _ => cases h

namespace ModelRun

variable {run : ModelRun} {v w : World}

theorem produce_created (run : ModelRun) {f : Formula} (h : f.Numeric) (v : World) :
    run.Created v (run.produce v f).1.nodes (run.produce v f).2 := by
  induction f generalizing v with
  | stored name => exact run.read_created v name
  | derived name derivation left right ihl ihr =>
    have hc := (ihl h.1 v).append (ihr h.2 (run.produce v left).2)
    rw [produce]
    exact join_created (by simpa using hc) trivial
  | remapped name table source =>
    have hc : run.Created v (Producer.nodesAll [(run.read v source).1]) (run.read v source).2 := by
      rw [Producer.nodesAll_cons, Producer.nodesAll_nil, List.append_nil]
      exact run.read_created v source
    exact join_created hc ⟨rfl, h⟩

theorem readGroup_created {g : SpeciesGroup} {p : Producer}
    (h : run.readGroup v g = .ok (p, w)) : run.Created v p.nodes w := by
  have hc := run.readAll_created v g.memberNames
  unfold readGroup at h
  rcases hr : run.readAll v g.memberNames with ⟨_ | ⟨first, others⟩, w₁⟩
  · simp [hr, World.addCombined] at h
  · simp only [hr, World.addCombined, Except.ok.injEq, Prod.ext_iff] at h
    obtain ⟨rfl, rfl⟩ := h
    rw [hr] at hc
    exact join_created hc trivial

theorem producer_created {name : Value} {p : Producer} (h : run.producer v name = .ok (p, w)) :
    run.Created v p.nodes w := by
  unfold producer at h
  obtain ⟨-, -, h⟩ := Attempt.bind_eq_ok.1 h
  split at h
  · exact readGroup_created h
  · split at h
    · next hq =>
      have hc := run.produce_created
        (Catalog.numeric_of_mem (Catalog.mem_of_find? hq)) v
      rwa [Except.ok.inj h] at hc
    · split at h <;> cases h

/-- A producer that is asked for is new, whatever was done before. -/
theorem access_created {a : Accessor} {p : Producer} (h : run.access v a = .ok (p, w)) :
    run.Created v p.nodes w := by
  cases a with
  | producer name => exact producer_created h
  | quantity name =>
    change run.quantity v name = .ok (p, w) at h
    unfold quantity at h
    split at h
    · next hq =>
      have hc := run.produce_created
        (Catalog.numeric_of_mem (Catalog.mem_of_find? hq)) v
      rwa [Except.ok.inj h] at hc
    · split at h
      · split at h
        · exact readGroup_created h
        · cases h
      · cases h
  | read name =>
    cases h
    exact run.read_created v name
  | readGroup g => exact readGroup_created h

end ModelRun

end GridStream
