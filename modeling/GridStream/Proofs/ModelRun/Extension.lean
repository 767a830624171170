import GridStream.Proofs.ModelRun.Accessor
import GridStream.Proofs.Producer.Simulation

/-!
# Slots added to two worlds

Asking for a producer adds slots to a world, one after the other, and does nothing else. So a
relation between worlds that is kept when a new slot is added to both is kept by every accessor,
which makes the same producer in both worlds, up to the renaming of keys, or fails for the same
reason (`ModelRun.access_made`).
-/

namespace GridStream

/-- Whether a relation of worlds is kept when a new slot is added to both, under keys that
correspond. -/
structure World.Extends (ρ : Nat → Nat) (R : World → World → Prop) : Prop where
  next {v w : World} (h : R v w) : ρ v.slots.size = w.slots.size
  addSlot {v w : World} (h : R v w) {slot : Slot} (hs : slot.Unused) :
    R (v.addSlot slot).2 (w.addSlot slot).2

/-- A producer and its copy, made in two worlds that are related afterwards, or the same failure. -/
inductive Made (ρ : Nat → Nat) (R : World → World → Prop) :
    Attempt (Producer × World) → Attempt (Producer × World) → Prop
  | refused (f : Failure) : Made ρ R (.error f) (.error f)
  | made {p : Producer} {v w : World} (h : R v w) : Made ρ R (.ok (p, v)) (.ok (p.rename ρ, w))

open Producer

variable {ρ : Nat → Nat} {R : World → World → Prop} {v w : World}

theorem Made.exists_eq {x y : Producer × World} (h : Made ρ R (.ok x) (.ok y)) :
    ∃ p v w, x = (p, v) ∧ y = (p.rename ρ, w) ∧ R v w := by
  cases h with
  | made h => exact ⟨_, _, _, rfl, rfl, h⟩

namespace World

theorem join_made (H : Extends ρ R) (h : R v w) {name : Value} {rule : Rule} {first : Producer}
    {others : List Producer} :
    Made ρ R (.ok (v.join name rule first others))
      (.ok (w.join name rule (first.rename ρ) (others.map (rename ρ)))) := by
  have hm := Made.made (ρ := ρ) (p := .combined v.slots.size name rule first others)
    (H.addSlot h (show (default : Slot).Unused from ⟨rfl, rfl, rfl, rfl⟩))
  rwa [rename, H.next h, renameAll_eq_map] at hm

theorem addCombined_made (H : Extends ρ R) (h : R v w) (name : Value) (rule : Rule)
    (inputs : List Producer) :
    Made ρ R (v.addCombined name rule inputs)
      (w.addCombined name rule (inputs.map (rename ρ))) := by
  cases inputs with
  | nil => exact .refused _
  | cons first others => exact join_made H h

end World

namespace ModelRun
open World

theorem read_made (run : ModelRun) (H : Extends ρ R) (h : R v w) (name : String) :
    Made ρ R (.ok (run.read v name)) (.ok (run.read w name)) := by
  have hm := Made.made (ρ := ρ) (p := .raw v.slots.size name run.window)
    (H.addSlot h (show ({ position := run.window.start } : Slot).Unused from
      ⟨rfl, rfl, rfl, rfl⟩))
  rwa [rename, H.next h] at hm

theorem readAll_made (run : ModelRun) (H : Extends ρ R) (h : R v w) (names : List String) :
    (run.readAll w names).1 = (run.readAll v names).1.map (rename ρ) ∧
      R (run.readAll v names).2 (run.readAll w names).2 := by
  induction names generalizing v w with
  | nil => exact ⟨rfl, h⟩
  | cons name names ih =>
    obtain ⟨p, v₁, w₁, hv, hw, h₁⟩ := (run.read_made H h name).exists_eq
    obtain ⟨hps, h₂⟩ := ih h₁
    simp only [readAll, hv, hw]
    exact ⟨by rw [hps, List.map_cons], h₂⟩

theorem readGroup_made (run : ModelRun) (H : Extends ρ R) (h : R v w) (g : SpeciesGroup) :
    Made ρ R (run.readGroup v g) (run.readGroup w g) := by
  obtain ⟨hps, h₁⟩ := run.readAll_made H h g.memberNames
  unfold readGroup
  dsimp only
  rw [hps]
  exact addCombined_made H h₁ _ _ _

theorem produce_made (run : ModelRun) (H : Extends ρ R) (h : R v w) (f : Formula) :
    Made ρ R (.ok (run.produce v f)) (.ok (run.produce w f)) := by
  induction f generalizing v w with
  | stored name => exact run.read_made H h name
  | derived name derivation left right ihl ihr =>
    obtain ⟨p, v₁, w₁, hv, hw, h₁⟩ := (ihl h).exists_eq
    obtain ⟨q, v₂, w₂, hv', hw', h₂⟩ := (ihr h₁).exists_eq
    simp only [produce, hv, hw, hv', hw']
    exact join_made H h₂
  | remapped name table source =>
    obtain ⟨p, v₁, w₁, hv, hw, h₁⟩ := (run.read_made H h source).exists_eq
    simp only [produce, hv, hw]
    exact join_made H h₁

/-- Asking for a producer comes to the same in both worlds. -/
theorem access_made (run : ModelRun) (H : Extends ρ R) (h : R v w) (a : Accessor) :
    Made ρ R (run.access v a) (run.access w a) := by
  cases a with
  | producer name =>
    change Made ρ R (run.producer v name) (run.producer w name)
    unfold producer
    cases name.checkKey with
    | error f => exact .refused f
    | ok =>
      dsimp only [bind, Except.bind]
      cases run.groups.get? name with
      | some g => exact run.readGroup_made H h g
      | none =>
        cases Catalog.find? name with
        | some q => exact run.produce_made H h q.formula
        | none =>
          dsimp only
          split <;> exact .refused _
  | quantity name =>
    change Made ρ R (run.quantity v name) (run.quantity w name)
    unfold quantity
    cases Catalog.find? (.text name) with
    | some q => exact run.produce_made H h q.formula
    | none =>
      dsimp only
      split
      · cases run.groups.get? (.text name) with
        | some g => exact run.readGroup_made H h g
        | none => exact .refused _
      · exact .refused _
  | read name => exact run.read_made H h name
  | readGroup g => exact run.readGroup_made H h g

/-! ## Worlds without files -/

theorem extends_untouched : Extends id fun v w => v = w ∧ w.Untouched where
  next h := by rw [id, h.1]
  addSlot {v w} h slot hs := by
    obtain ⟨rfl, hu⟩ := h
    have hslot : ∀ k, (v.addSlot slot).2.slot k = slot ∨ (v.addSlot slot).2.slot k = v.slot k ∨
        (v.addSlot slot).2.slot k = default := fun k => by
      by_cases hk : v.HasSlot k
      · exact .inr (.inl (slot_addSlot_of_hasSlot hk))
      · by_cases hnew : k = v.slots.size
        · exact .inl (hnew ▸ slot_addSlot_self)
        · refine .inr (.inr (slot_of_not_hasSlot fun h => ?_))
          simp only [HasSlot, addSlot, Array.size_push] at h hk
          omega
    refine ⟨rfl, hu.opened, hu.trace, fun k => ?_, fun k => ?_⟩
    · rcases hslot k with h | h | h <;> rw [h]
      exacts [hs.handle, hu.handle k, rfl]
    · rcases hslot k with h | h | h <;> rw [h]
      exacts [hs.fileTime, hu.fileTime k, rfl]

/-- Asking for a producer opens no file. -/
theorem untouched_access {run : ModelRun} {a : Accessor} {p : Producer} (h : v.Untouched)
    (hp : run.access v a = .ok (p, w)) : w.Untouched := by
  have hm := run.access_made extends_untouched ⟨rfl, h⟩ a
  rw [hp] at hm
  obtain ⟨_, _, _, -, he, -, hw⟩ := hm.exists_eq
  cases he
  exact hw

end ModelRun

end GridStream
