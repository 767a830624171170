import GridStream.Producer.World

/-!
# What changes where in a world

How the operations on a world act on its slots. An operation that is given a key changes no slot
but that of the key (`slot_modify_of_ne`, `slot_release_of_ne`), and an event changes none.
-/

namespace GridStream.World

/-- A key that has a slot. -/
def HasSlot (w : World) (key : Nat) : Prop := key < w.slots.size

variable {w w' : World} {key k : Nat}

theorem hasSlot_congr (h : w'.slots.size = w.slots.size) : w'.HasSlot k ↔ w.HasSlot k := by
  rw [HasSlot, HasSlot, h]

/-! ## Changes of one slot -/

@[simp] theorem size_modify {f : Slot → Slot} : (w.modify key f).slots.size = w.slots.size := by
  simp [modify]

@[simp] theorem hasSlot_modify {f : Slot → Slot} : (w.modify key f).HasSlot k ↔ w.HasSlot k :=
  hasSlot_congr size_modify

theorem slot_modify_self {f : Slot → Slot} (h : w.HasSlot key) :
    (w.modify key f).slot key = f (w.slot key) := by
  unfold HasSlot at h
  simp [slot, modify, Array.getD, h, Array.getElem_modify]

theorem slot_modify_of_ne {f : Slot → Slot} (h : k ≠ key) :
    (w.modify key f).slot k = w.slot k := by
  simp only [slot, modify, Array.getD_eq_getD_getElem?, Array.getElem?_modify]
  rw [if_neg (Ne.symm h)]

theorem slot_modify_of_not_hasSlot {f : Slot → Slot} (h : ¬ w.HasSlot key) :
    (w.modify key f).slot key = w.slot key := by
  unfold HasSlot at h
  simp [slot, modify, Array.getD, h]

/-- A change that keeps a field keeps it in every slot, also where the key has none. -/
theorem slot_modify_congr {f : Slot → Slot} (view : Slot → α)
    (h : view (f (w.slot key)) = view (w.slot key)) :
    view ((w.modify key f).slot k) = view (w.slot k) := by
  by_cases hk : k = key
  · subst hk
    by_cases hs : w.HasSlot k
    · rw [slot_modify_self hs, h]
    · rw [slot_modify_of_not_hasSlot hs]
  · rw [slot_modify_of_ne hk]

@[simp] theorem trace_modify {f : Slot → Slot} : (w.modify key f).trace = w.trace := rfl
@[simp] theorem opened_modify {f : Slot → Slot} : (w.modify key f).opened = w.opened := rfl

/-- A key without a slot reads as an untouched one. -/
theorem slot_of_not_hasSlot (h : ¬ w.HasSlot key) : w.slot key = default := by
  unfold HasSlot at h
  simp [slot, Array.getD, h]

/-- Only a key with a slot can hold a file. -/
theorem hasSlot_of_handle {h : Handle} (hk : (w.slot key).handle = some h) : w.HasSlot key := by
  by_cases hs : w.HasSlot key
  · exact hs
  · rw [slot_of_not_hasSlot hs] at hk
    cases hk

/-! ## Events -/

@[simp] theorem slot_record {e : Event} : (w.record e).slot k = w.slot k := rfl
@[simp] theorem slots_record {e : Event} : (w.record e).slots = w.slots := rfl
@[simp] theorem opened_record {e : Event} : (w.record e).opened = w.opened := rfl
@[simp] theorem trace_record {e : Event} : (w.record e).trace = e :: w.trace := rfl

@[simp] theorem slot_announce {m : String} : (w.announce m).slot k = w.slot k := rfl

/-! ## Closing the file of a producer -/

theorem release_of_handle_none (h : (w.slot key).handle = none) : w.release key = w := by
  simp [release, h]

@[simp] theorem size_release : (w.release key).slots.size = w.slots.size := by
  unfold release
  split <;> simp [closeFile]

@[simp] theorem opened_release : (w.release key).opened = w.opened := by
  unfold release
  split <;> simp [closeFile]

theorem slot_release_of_ne (h : k ≠ key) : (w.release key).slot k = w.slot k := by
  unfold release
  split
  · rfl
  · exact slot_modify_of_ne h

@[simp] theorem handle_release_self : ((w.release key).slot key).handle = none := by
  unfold release
  split
  · assumption
  · next h => rw [closeFile, slot_record, slot_modify_self (hasSlot_of_handle h)]

/-- Closing a file leaves all but the file of a slot as it is. -/
theorem slot_release_congr (view : Slot → α)
    (hv : ∀ s : Slot, view { s with handle := none, fileTime := none } = view s) :
    view ((w.release key).slot k) = view (w.slot k) := by
  unfold release
  split
  · rfl
  · exact slot_modify_congr view (hv _)

end GridStream.World
