import GridStream.Proofs.ModelRun.Extension
import GridStream.Proofs.Producer.Alike

/-!
# Producers made in two worlds

A renaming embeds a world in another if all slots of the one stand, under their new keys, in the
other (`World.Embeds`), and is aligned if besides it takes the keys that come next to those that
come next there. An accessor that is asked in worlds that are aligned gives the same producer in
both, up to the renaming, or fails for the same reason (`ModelRun.access_paired`).
-/

namespace GridStream

variable {ρ σ : Nat → Nat} {v w : World}

namespace World

/-- All slots of the world `v` stand in `w`, under other keys. -/
def Embeds (ρ : Nat → Nat) (v w : World) : Prop := v.Alike ρ (List.range v.slots.size) w

structure Aligned (ρ : Nat → Nat) (v w : World) : Prop where
  embeds : v.Embeds ρ w
  next : ∀ n, ρ (v.slots.size + n) = w.slots.size + n

/-- The renaming that takes new keys to new keys and all others as before. -/
def align (ρ : Nat → Nat) (v w : World) (k : Nat) : Nat :=
  if k < v.slots.size then ρ k else w.slots.size + (k - v.slots.size)

theorem align_of_hasSlot {k : Nat} (h : v.HasSlot k) : align ρ v w k = ρ k := if_pos h

theorem align_of_not_hasSlot {k : Nat} (h : ¬ v.HasSlot k) : w.slots.size ≤ align ρ v w k := by
  unfold HasSlot at h
  rw [align, if_neg h]
  exact Nat.le_add_right _ _

namespace Embeds

theorem inj (h : v.Embeds ρ w) {j k : Nat} (hj : v.HasSlot j) (hk : v.HasSlot k)
    (e : ρ j = ρ k) : j = k :=
  Alike.inj h j (List.mem_range.2 hj) k (List.mem_range.2 hk) e

theorem hasSlot (h : v.Embeds ρ w) {k : Nat} (hk : v.HasSlot k) : w.HasSlot (ρ k) :=
  (Alike.placed h k (List.mem_range.2 hk)).2

theorem slot_alike (h : v.Embeds ρ w) {k : Nat} (hk : v.HasSlot k) :
    (v.slot k).Alike (w.slot (ρ k)) :=
  Alike.slot h k (List.mem_range.2 hk)

/-- Only the keys of slots are renamed. -/
theorem congr (h : v.Embeds ρ w) (hσ : ∀ k, v.HasSlot k → σ k = ρ k) : v.Embeds σ w where
  inj j hj k hk e := by
    rw [List.mem_range] at hj hk
    rw [hσ j hj, hσ k hk] at e
    exact h.inj hj hk e
  placed k hk := by
    rw [List.mem_range] at hk
    rw [hσ k hk]
    exact ⟨hk, h.hasSlot hk⟩
  slot k hk := by
    rw [List.mem_range] at hk
    rw [hσ k hk]
    exact h.slot_alike hk

theorem align (h : v.Embeds ρ w) : Aligned (align ρ v w) v w where
  embeds := h.congr fun _ => align_of_hasSlot
  next n := by
    rw [World.align, if_neg (by omega), Nat.add_sub_cancel_left]

end Embeds

/-- The slot that is added next is the next one in both worlds. -/
theorem Aligned.addSlot (h : v.Aligned ρ w) (slot : Slot) :
    (v.addSlot slot).2.Aligned ρ (w.addSlot slot).2 := by
  have hsize : (v.addSlot slot).2.slots.size = v.slots.size + 1 := Array.size_push _
  have hsize' : (w.addSlot slot).2.slots.size = w.slots.size + 1 := Array.size_push _
  have hnew : ρ v.slots.size = w.slots.size := h.next 0
  have hcases : ∀ k ∈ List.range (v.addSlot slot).2.slots.size,
      v.HasSlot k ∨ k = v.slots.size := fun k hk => by
    rw [hsize, List.mem_range] at hk
    exact Nat.lt_succ_iff_lt_or_eq.1 hk
  have hold : ∀ k, v.HasSlot k → ρ k < w.slots.size := fun k hk => h.embeds.hasSlot hk
  refine ⟨⟨fun j hj k hk e => ?_, fun k hk => ?_, fun k hk => ?_⟩, fun n => ?_⟩
  · rcases hcases j hj with hj | rfl <;> rcases hcases k hk with hk | rfl
    · exact h.embeds.inj hj hk e
    · have := hold j hj
      omega
    · have := hold k hk
      omega
    · rfl
  · refine ⟨List.mem_range.1 hk, ?_⟩
    rw [HasSlot, hsize']
    rcases hcases k hk with hk | rfl
    · exact Nat.lt_succ_of_lt (hold k hk)
    · rw [hnew]
      exact Nat.lt_succ_self _
  · rcases hcases k hk with hk | rfl
    · rw [slot_addSlot_of_hasSlot hk, slot_addSlot_of_hasSlot (h.embeds.hasSlot hk)]
      exact h.embeds.slot_alike hk
    · rw [hnew, slot_addSlot_self, slot_addSlot_self]
      exact ⟨rfl, rfl, rfl, rfl, rfl⟩
  · rw [hsize, hsize', Nat.add_assoc, h.next, Nat.add_assoc]

end World

/-- A producer and its copy, made in worlds that are aligned, or the same failure. -/
inductive Paired (ρ : Nat → Nat) :
    Attempt (Producer × World) → Attempt (Producer × World) → Prop
  | refused (f : Failure) : Paired ρ (.error f) (.error f)
  | made {p : Producer} {v w : World} (h : v.Aligned ρ w) :
    Paired ρ (.ok (p, v)) (.ok (p.rename ρ, w))

/-- Worlds stay aligned when a slot is added to both. -/
theorem extends_aligned : World.Extends ρ (World.Aligned ρ) where
  next h := h.next 0
  addSlot h slot _ := h.addSlot slot

theorem Paired.of_made {x y : Attempt (Producer × World)} (h : Made ρ (World.Aligned ρ) x y) :
    Paired ρ x y := by
  cases h with
  | refused f => exact .refused f
  | made h => exact .made h

theorem World.addCombined_paired (h : v.Aligned ρ w) {name : Value} {rule : Rule}
    {inputs : List Producer} :
    Paired ρ (v.addCombined name rule inputs)
      (w.addCombined name rule (inputs.map (Producer.rename ρ))) :=
  .of_made (addCombined_made extends_aligned h _ _ _)

/-- Asking for a producer comes to the same in worlds that are aligned. -/
theorem ModelRun.access_paired (run : ModelRun) (h : v.Aligned ρ w) (a : Accessor) :
    Paired ρ (run.access v a) (run.access w a) :=
  .of_made (run.access_made extends_aligned h a)

end GridStream
