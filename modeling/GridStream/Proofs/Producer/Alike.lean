import GridStream.Proofs.Producer.Simulation

/-!
# Producers in two worlds

The slots that a producer works on may stand under other keys in another world, and among those of
other producers. Two worlds are alike on some keys if a renaming takes the slots of these keys in
the one to equal slots in the other, but for the numbers of the files that are open
(`World.Alike`). A producer and its renamed copy do the same in worlds that are alike: they give the
same answers, and the worlds stay alike (`Producer.pull_alike`, `Producer.close_alike`).
-/

namespace GridStream

/-- Slots that are equal but for the number of the file that is open. -/
structure Slot.Alike (a b : Slot) : Prop where
  position : b.position = a.position
  timestamp : b.timestamp = a.timestamp
  failure : b.failure = a.failure
  fileTime : b.fileTime = a.fileTime
  handle : (b.handle.map fun h => (h.start, h.file)) = a.handle.map fun h => (h.start, h.file)

/-! ## Worlds that are alike -/

/-- Whether a renaming takes the slots of some keys in the world `v` to equal slots in `w`. -/
structure World.Alike (ρ : Nat → Nat) (keys : List Nat) (v w : World) : Prop where
  inj : ∀ k ∈ keys, ∀ k' ∈ keys, ρ k = ρ k' → k = k'
  placed : ∀ k ∈ keys, v.HasSlot k ∧ w.HasSlot (ρ k)
  slot : ∀ k ∈ keys, (v.slot k).Alike (w.slot (ρ k))

/-- Whether two results are the same and leave worlds that are alike. -/
def World.Same {α : Type} (ρ : Nat → Nat) (keys : List Nat) (x y : α × World) : Prop :=
  y.1 = x.1 ∧ x.2.Alike ρ keys y.2

theorem World.Same.exists_eq {α : Type} {ρ : Nat → Nat} {keys : List Nat} {x y : α × World}
    (h : Same ρ keys x y) : ∃ r v w, x = (r, v) ∧ y = (r, w) ∧ v.Alike ρ keys w :=
  ⟨x.1, x.2, y.2, rfl, Prod.ext h.1 rfl, h.2⟩

variable {s : Source} {ρ : Nat → Nat} {keys : List Nat} {v v' w w' : World} {key : Nat}

namespace World.Alike

/-- Only the slots matter. -/
theorem congr (h : v.Alike ρ keys w) (hv : v'.slots = v.slots) (hw : w'.slots = w.slots) :
    v'.Alike ρ keys w' := by
  obtain ⟨inj, placed, slot⟩ := h
  simp only [World.HasSlot, World.slot] at *
  exact ⟨inj, by simpa only [World.HasSlot, hv, hw] using placed,
    by simpa only [World.slot, hv, hw] using slot⟩

/-- Slots of other keys may change. -/
theorem frame (h : v.Alike ρ keys w) (hp : ∀ k ∈ keys, w'.HasSlot (ρ k))
    (hw : ∀ k ∈ keys, w'.slot (ρ k) = w.slot (ρ k)) : v.Alike ρ keys w' where
  inj := h.inj
  placed k hk := ⟨(h.placed k hk).1, hp k hk⟩
  slot k hk := hw k hk ▸ h.slot k hk

/-- A change of a slot that takes equal slots to equal slots. -/
theorem modify (h : v.Alike ρ keys w) (hk : key ∈ keys) {f g : Slot → Slot}
    (hf : (f (v.slot key)).Alike (g (w.slot (ρ key)))) :
    (v.modify key f).Alike ρ keys (w.modify (ρ key) g) where
  inj := h.inj
  placed k hk := ⟨hasSlot_modify.2 (h.placed k hk).1, hasSlot_modify.2 (h.placed k hk).2⟩
  slot k hk' := by
    by_cases e : k = key
    · subst e
      rw [slot_modify_self (h.placed k hk).1, slot_modify_self (h.placed k hk).2]
      exact hf
    · rw [slot_modify_of_ne e, slot_modify_of_ne fun e' => e (h.inj k hk' key hk e')]
      exact h.slot k hk'

theorem release (h : v.Alike ρ keys w) (hk : key ∈ keys) :
    (v.release key).Alike ρ keys (w.release (ρ key)) := by
  have hs := h.slot key hk
  have hhandle := hs.handle
  cases hv : (v.slot key).handle with
  | none =>
    have hw : (w.slot (ρ key)).handle = none := by simpa [hv] using hhandle
    rwa [release_of_handle_none hv, release_of_handle_none hw]
  | some a =>
    obtain ⟨b, hw, -⟩ : ∃ b, (w.slot (ρ key)).handle = some b ∧ _ := by
      simpa [hv] using hhandle
    simp only [World.release, hv, hw, closeFile]
    have hm := h.modify hk (f := fun s => { s with handle := none, fileTime := none })
      (g := fun s => { s with handle := none, fileTime := none })
      ⟨hs.position, hs.timestamp, hs.failure, rfl, rfl⟩
    exact hm.congr rfl rfl

end World.Alike

namespace Producer
open World

variable {name : String} {p : Producer}

theorem readHeld_alike (h : v.Alike ρ keys w) (hk : key ∈ keys) {index : Int} :
    Same ρ keys (v.readHeld key name index) (w.readHeld (ρ key) name index) := by
  have hhandle := (h.slot key hk).handle
  unfold World.readHeld
  cases hv : (v.slot key).handle with
  | none =>
    have hw : (w.slot (ρ key)).handle = none := by simpa [hv] using hhandle
    rw [hw]
    exact ⟨rfl, h⟩
  | some a =>
    obtain ⟨b, hw, -, hfile⟩ : ∃ b, (w.slot (ρ key)).handle = some b ∧ b.start = a.start ∧
        b.file = a.file := by simpa [hv] using hhandle
    rw [hw]
    refine ⟨?_, h.congr rfl rfl⟩
    simp only [readRecord, hfile]

/-- Worlds stay alike under all that a pull consists of. -/
theorem lockstep_alike : Lockstep ρ keys (Alike ρ keys) where
  timestamp h hk := (h.slot _ hk).timestamp
  failure h hk := (h.slot _ hk).failure
  pulled h _ := h.congr rfl rfl
  applied h _ := h.congr rfl rfl
  stamp h hk _ :=
    have hs := h.slot _ hk
    h.modify hk ⟨hs.position, rfl, hs.failure, hs.fileTime, hs.handle⟩
  halt h hk _ :=
    have hs := h.slot _ hk
    h.modify hk ⟨hs.position, hs.timestamp, rfl, hs.fileTime, hs.handle⟩
  release h hk := h.release hk
  position h hk := (h.slot _ hk).position
  fileTime h hk := (h.slot _ hk).fileTime
  place h hk _ :=
    have hs := h.slot _ hk
    h.modify hk ⟨rfl, hs.timestamp, hs.failure, hs.fileTime, hs.handle⟩
  announce h _ := h.congr rfl rfl
  requested h _ := h.congr rfl rfl
  take {v w k} h hk start file := by
    have hs := h.slot k hk
    have hm := h.modify hk
      (f := fun slot =>
        { slot with handle := some ⟨v.opened, start, file⟩, fileTime := some start })
      (g := fun slot =>
        { slot with handle := some ⟨w.opened, start, file⟩, fileTime := some start })
      ⟨hs.position, hs.timestamp, hs.failure, rfl, rfl⟩
    exact hm.congr rfl rfl
  readHeld h hk _ _ := readHeld_alike h hk

theorem close_alike (h : v.Alike ρ keys w) (hk : p.keys ⊆ keys) :
    (close v p).Alike ρ keys (close w (p.rename ρ)) :=
  related_close (fun h hk => Alike.release h hk) h hk

/-- A producer and its copy in a world that is alike give the same answer. -/
theorem pull_alike (h : v.Alike ρ keys w) (hk : p.keys ⊆ keys) :
    Same ρ keys (p.pull s v) ((p.rename ρ).pull s w) :=
  lockstep_alike.simulation.pull h hk

end Producer

end GridStream
