import GridStream.Proofs.Producer.Tree
import Mathlib.Logic.Relation

/-!
# Moves

Whatever a pull does to a world, it does by moves of five kinds (`Move`): something is noted that
concerns no open file, a slot changes in what concerns neither files nor failures, a producer is
halted, a raw producer closes the file that it holds, or one that holds none opens a file. Pulling
and closing are sequences of moves (`Producer.pull_moves`, `Producer.close_moves`), so what every
move keeps is kept by both. Only a pull that fails halts anything.
-/

namespace GridStream

/-- The file that an event is the opening of. -/
def Event.opened? : Event → Option Nat
  | .opened id _ => some id
  | _ => none

/-- The file that an event is the closing of. -/
def Event.closed? : Event → Option Nat
  | .closed id _ => some id
  | _ => none

/-- The world after a producer without a file has opened one. -/
def World.take (w : World) (key : Nat) (start : Instant) (file : DataFile) : World :=
  { w.record (.opened w.opened start) with opened := w.opened + 1 }.modify key fun slot =>
    { slot with handle := some ⟨w.opened, start, file⟩, fileTime := some start }

theorem World.slot_take_self {w : World} {key : Nat} {start : Instant} {file : DataFile}
    (h : w.HasSlot key) : (w.take key start file).slot key =
      { w.slot key with handle := some ⟨w.opened, start, file⟩, fileTime := some start } :=
  slot_modify_self h

/-- Whether a file is what a source gives for a time. -/
def Source.Gives (s : Source) (start : Instant) (file : DataFile) : Prop :=
  s.openAt start = .ok file

/-- One change of a world. Files are opened from those that are given. The lists are the keys of
the producers whose slots may change, of the raw ones that may hold files, and of those that may be
halted. -/
inductive Move (given : Instant → DataFile → Prop) (keys leaves halts : List Nat) :
    World → World → Prop
  | note {w : World} (e : Event) (progress : Progress) (ho : e.opened? = none)
      (hc : e.closed? = none) : Move given keys leaves halts w { w.record e with progress }
  | change {w : World} {key : Nat} (f : Slot → Slot) (hk : key ∈ keys)
      (hf : ∀ slot, (f slot).handle = slot.handle ∧ (f slot).fileTime = slot.fileTime ∧
        (f slot).failure = slot.failure) : Move given keys leaves halts w (w.modify key f)
  | halt {w : World} {key : Nat} (f : Failure) (hk : key ∈ keys) (hh : key ∈ halts) :
      Move given keys leaves halts w (w.modify key fun slot => { slot with failure := some f })
  | release {w : World} {key : Nat} (hk : key ∈ leaves) :
      Move given keys leaves halts w (w.release key)
  | take {w : World} {key : Nat} {start : Instant} {file : DataFile} (hk : key ∈ leaves)
      (hfree : (w.slot key).handle = none) (hfile : given start file) :
      Move given keys leaves halts w (w.take key start file)

/-- Any number of changes, one after the other. -/
abbrev Moves (given : Instant → DataFile → Prop) (keys leaves halts : List Nat) :
    World → World → Prop :=
  Relation.ReflTransGen (Move given keys leaves halts)

variable {s : Source} {given : Instant → DataFile → Prop} {keys leaves halts : List Nat}
  {w w' : World} {k : Nat}

namespace Move

theorem size_eq (m : Move given keys leaves halts w w') : w'.slots.size = w.slots.size := by
  cases m with
  | note => rfl
  | change | halt => exact World.size_modify
  | release => exact World.size_release
  | take => simp [World.take]

/-- A move leaves the slots of other producers as they are. -/
theorem slot_eq (m : Move given keys leaves halts w w') (hk : k ∉ keys) (hl : k ∉ leaves) :
    w'.slot k = w.slot k := by
  cases m with
  | note => rfl
  | change _ h | halt _ h => exact World.slot_modify_of_ne fun e => hk (e ▸ h)
  | release h => exact World.slot_release_of_ne fun e => hl (e ▸ h)
  | take h => exact World.slot_modify_of_ne fun e => hl (e ▸ h)

theorem failure_eq (m : Move given keys leaves halts w w') (hk : k ∉ halts) :
    (w'.slot k).failure = (w.slot k).failure := by
  cases m with
  | note => rfl
  | change f _ h => exact World.slot_modify_congr Slot.failure (h _).2.2
  | halt _ _ h => rw [World.slot_modify_of_ne (ne_of_mem_of_not_mem h hk).symm]
  | release => exact World.slot_release_congr Slot.failure fun _ => rfl
  | take => exact World.slot_modify_congr Slot.failure rfl

end Move

namespace Moves

theorem size_eq (m : Moves given keys leaves halts w w') : w'.slots.size = w.slots.size := by
  induction m with
  | refl => rfl
  | tail _ m ih => rw [m.size_eq, ih]

theorem hasSlot (m : Moves given keys leaves halts w w') (h : w.HasSlot k) : w'.HasSlot k :=
  (World.hasSlot_congr m.size_eq).2 h

theorem slot_eq (m : Moves given keys leaves halts w w') (hk : k ∉ keys) (hl : k ∉ leaves) :
    w'.slot k = w.slot k := by
  induction m with
  | refl => rfl
  | tail _ m ih => rw [m.slot_eq hk hl, ih]

theorem failure_eq (m : Moves given keys leaves halts w w') (hk : k ∉ halts) :
    (w'.slot k).failure = (w.slot k).failure := by
  induction m with
  | refl => rfl
  | tail _ m ih => rw [m.failure_eq hk, ih]

theorem record (e : Event) (ho : e.opened? = none) (hc : e.closed? = none) :
    Moves given keys leaves halts w (w.record e) :=
  .single (.note e w.progress ho hc)

end Moves

/-! ## Raw producers -/

namespace Producer
variable {key : Nat} {name : String} {window : Window}

theorem stepInto_moves {start : Instant} (hk : key ∈ leaves) :
    Moves s.Gives keys leaves halts w (stepInto s w key name start).2 := by
  have hr : Moves s.Gives keys leaves halts w (w.release key) := .single (.release hk)
  unfold stepInto
  rcases s.describe start with f | path
  · exact hr
  · have ha := hr.tail (.note (.announced s!"Reading {name} from {path}")
      ((w.release key).progress.notify s!"Reading {name} from {path}") rfl rfl)
    have hq := ha.trans (Moves.record (.requested start) rfl rfl)
    simp only [World.openFile]
    cases ho : s.openAt start with
    | error f => exact hq
    | ok file => exact hq.tail (.take hk World.handle_release_self ho)

theorem enter_moves (name : String) (start : Instant) (hk : key ∈ leaves) :
    Moves s.Gives keys leaves halts w (enter s w key name start).2 := by
  unfold enter
  split
  · exact .refl
  · exact stepInto_moves hk

theorem readHeld_moves (w : World) (key : Nat) (name : String) (index : Int) :
    Moves given keys leaves halts w (w.readHeld key name index).2 := by
  unfold World.readHeld
  split
  · exact .refl
  · exact Moves.record _ rfl rfl

theorem readRecordAt_moves {time : Instant} (hk : key ∈ keys) (hl : key ∈ leaves) :
    Moves s.Gives keys leaves halts w (readRecordAt s w key name window time).2 := by
  unfold readRecordAt
  split
  · exact .refl
  · next start _ =>
    have he : Moves s.Gives keys leaves halts w _ := enter_moves name start hl
    split
    · next h => rwa [h] at he
    · next w₁ h =>
      rw [h] at he
      have hr := he.trans (readHeld_moves w₁ key name (window.recordIndex time))
      dsimp only
      split
      · next h => rwa [h] at hr
      · next h =>
        rw [h] at hr
        exact hr.tail (.change _ hk fun _ => ⟨rfl, rfl, rfl⟩)

/-- Reading the next record halts no producer by itself. -/
theorem readNext_moves (hk : key ∈ keys) (hl : key ∈ leaves) :
    Moves s.Gives keys leaves halts w (readNext s w key name window).2 := by
  unfold readNext
  split
  · exact .refl
  · exact .refl
  · next next _ =>
    exact .head (.change (fun slot => { slot with position := next.current }) hk
      fun _ => ⟨rfl, rfl, rfl⟩) (readRecordAt_moves hk hl)

/-! ## Whole trees -/

private theorem close_moves_aux : (∀ p : Producer, p.leafKeys ⊆ leaves →
      ∀ w, Moves given keys leaves halts w (close w p)) ∧
    ∀ ps, leafKeysAll ps ⊆ leaves → ∀ w, Moves given keys leaves halts w (closeAll w ps) := by
  refine forest_induction ?raw ?combined ?nil ?cons
  case raw =>
    intro key name window hl w
    rw [close]
    exact .single (.release (hl (by simp)))
  case combined =>
    intro key name rule first others ih hl w
    have h := ih (by simpa using hl) w
    rwa [closeAll, ← close] at h
  case nil =>
    intro _ w
    rw [closeAll]
  case cons =>
    intro p ps ihp ihps hl w
    rw [leafKeysAll_cons, List.append_subset] at hl
    rw [closeAll]
    exact (ihp hl.1 w).trans (ihps hl.2 _)

theorem close_moves {p : Producer} (hl : p.leafKeys ⊆ leaves) :
    Moves given keys leaves halts w (close w p) :=
  close_moves_aux.1 p hl w

theorem size_close {p : Producer} : (close w p).slots.size = w.slots.size := by
  have m : Moves (fun _ _ => False) [] p.leafKeys [] w (close w p) :=
    close_moves (List.Subset.refl _)
  exact m.size_eq

/-- Closing a producer leaves the slots of all others as they are. -/
theorem slot_close_of_not_mem {p : Producer} (hk : k ∉ p.keys) :
    (close w p).slot k = w.slot k := by
  have m : Moves (fun _ _ => False) [] p.leafKeys [] w (close w p) :=
    close_moves (List.Subset.refl _)
  exact m.slot_eq List.not_mem_nil fun h => hk (p.leafKeys_subset_keys h)

theorem settle_fst {p : Producer} {r : Pull Grid × World} : (settle p r).1 = r.1 := by
  obtain ⟨_ | _ | _, _⟩ := r <;> rfl

theorem settle_moves {p : Producer} (hk : p.key ∈ keys) (hl : p.leafKeys ⊆ leaves)
    {r : Pull Grid × World} (hh : (∃ f, r.1 = .failed f) → p.key ∈ halts) :
    Moves given keys leaves halts r.2 (settle p r).2 := by
  obtain ⟨_ | _ | f, w⟩ := r
  · exact .refl
  · exact close_moves hl
  · exact .head (.halt f hk (hh ⟨f, rfl⟩)) (close_moves hl)

theorem derive_moves {name : Value} {rule : Rule} {time : Option Instant} {inputs : List Value}
    {gs : List Grid} (hk : key ∈ keys) :
    Moves given keys leaves halts w (derive w key name rule time inputs gs).2 := by
  have ht : Moves given keys leaves halts w
      (w.modify key fun slot => { slot with timestamp := time }) :=
    .single (.change _ hk fun _ => ⟨rfl, rfl, rfl⟩)
  have ha := ht.trans (Moves.record (.applied key) rfl rfl)
  unfold derive
  dsimp only
  split
  · exact ht
  · split <;> exact ha

theorem conclude_moves {name : Value} {rule : Rule} {first : Producer} {others : List Producer}
    {r : Pull (List Grid) × World} (hk : key ∈ keys) :
    Moves given keys leaves halts r.2 (conclude key name rule first others r).2 := by
  obtain ⟨_ | _ | _, w⟩ := r
  · exact derive_moves hk
  · exact .refl
  · exact .refl

/-- What a combined producer makes of the answers of its inputs halts nothing yet. -/
theorem failure_conclude {name : Value} {rule : Rule} {first : Producer}
    {others : List Producer} {r : Pull (List Grid) × World} :
    ((conclude key name rule first others r).2.slot k).failure = (r.2.slot k).failure := by
  have m : Moves (fun _ _ => False) [key] [] [] r.2 (conclude key name rule first others r).2 :=
    conclude_moves (List.mem_singleton_self key)
  exact m.failure_eq List.not_mem_nil

theorem hasSlot_conclude {name : Value} {rule : Rule} {first : Producer}
    {others : List Producer} {r : Pull (List Grid) × World} (h : r.2.HasSlot k) :
    (conclude key name rule first others r).2.HasSlot k := by
  have m : Moves (fun _ _ => False) [key] [] [] r.2 (conclude key name rule first others r).2 :=
    conclude_moves (List.mem_singleton_self key)
  exact m.hasSlot h

private theorem pull_moves_aux :
    (∀ p : Producer, p.keys ⊆ keys → p.leafKeys ⊆ leaves → ∀ w,
      ((∃ f, (p.pull s w).1 = .failed f) → p.keys ⊆ halts) →
      Moves s.Gives keys leaves halts w (p.pull s w).2) ∧
    ∀ ps, keysAll ps ⊆ keys → leafKeysAll ps ⊆ leaves → ∀ w,
      ((∃ f, (pullAll s w ps).1 = .failed f) → keysAll ps ⊆ halts) →
      Moves s.Gives keys leaves halts w (pullAll s w ps).2 := by
  refine forest_induction ?raw ?combined ?nil ?cons
  case raw =>
    intro key name window hk hl w hh
    have hp : Moves s.Gives keys leaves halts w (w.record (.pulled key)) := Moves.record _ rfl rfl
    cases hf : (w.slot key).failure with
    | some f => rwa [pull_of_failed (p := raw key name window) hf]
    | none =>
      have hk' : key ∈ keys := hk (by simp)
      rw [pull_raw hf] at hh ⊢
      rw [settle_fst] at hh
      exact (hp.trans (readNext_moves hk' (hl (by simp)))).trans
        (settle_moves (p := raw key name window) hk' hl fun h => hh h (key_mem_keys _))
  case combined =>
    intro key name rule first others ih hk hl w hh
    have hp : Moves s.Gives keys leaves halts w (w.record (.pulled key)) := Moves.record _ rfl rfl
    cases hf : (w.slot key).failure with
    | some f => rwa [pull_of_failed (p := combined key name rule first others) hf]
    | none =>
      have hk' : key ∈ keys := hk (by simp)
      rw [pull_combined hf] at hh ⊢
      rw [settle_fst] at hh
      have hi := ih (fun k h => hk (by simp_all)) (by simpa using hl) (w.record (.pulled key)) ?_
      · exact ((hp.trans hi).trans (conclude_moves hk')).trans
          (settle_moves (p := combined key name rule first others) hk' hl
            fun h => hh h (key_mem_keys _))
      · rintro ⟨f, h⟩ k hk
        refine hh ⟨f, ?_⟩ (by simp_all)
        rcases hr : pullAll s (w.record (.pulled key)) (first :: others) with ⟨r, w₁⟩
        rw [hr] at h
        cases h
        rfl
  case nil =>
    intro _ _ w _
    rw [pullAll_nil]
  case cons =>
    intro p ps ihp ihps hk hl w hh
    rw [keysAll_cons, List.append_subset] at hk
    rw [leafKeysAll_cons, List.append_subset] at hl
    rw [keysAll_cons] at hh
    rw [pullAll] at hh ⊢
    have hp := ihp hk.1 hl.1 w
    rcases hr : p.pull s w with ⟨_ | _ | f, w₁⟩
    · rw [hr] at hh hp
      have hps := ihps hk.2 hl.2 w₁
      dsimp only at hh ⊢
      rcases hr : pullAll s w₁ ps with ⟨_ | _ | f, w₂⟩
      all_goals
        rw [hr] at hh hps
        refine (hp (by simp)).trans (hps ?_)
        simp_all
    · rw [hr] at hp
      exact hp (by simp)
    · rw [hr] at hh hp
      exact hp fun _ => (List.append_subset.1 (hh ⟨f, rfl⟩)).1

theorem pull_moves (p : Producer) : Moves s.Gives p.keys p.leafKeys p.keys w (p.pull s w).2 :=
  pull_moves_aux.1 p (List.Subset.refl _) (List.Subset.refl _) w fun _ => List.Subset.refl _

theorem pullAll_moves (ps : List Producer) :
    Moves s.Gives (keysAll ps) (leafKeysAll ps) (keysAll ps) w (pullAll s w ps).2 :=
  pull_moves_aux.2 ps (List.Subset.refl _) (List.Subset.refl _) w fun _ => List.Subset.refl _

/-- A pull leaves the slots of all other producers as they are. -/
theorem slot_pull_of_not_mem {p : Producer} (hk : k ∉ p.keys) :
    (p.pull s w).2.slot k = w.slot k :=
  p.pull_moves.slot_eq hk fun h => hk (p.leafKeys_subset_keys h)

theorem slot_pullAll_of_not_mem {ps : List Producer} (hk : k ∉ keysAll ps) :
    (pullAll s w ps).2.slot k = w.slot k :=
  (pullAll_moves ps).slot_eq hk fun h => hk (leafKeysAll_subset_keysAll ps h)

/-- A pull that does not fail halts nothing. -/
theorem failure_pull {p : Producer} (h : ∀ f, (p.pull s w).1 ≠ .failed f) :
    ((p.pull s w).2.slot k).failure = (w.slot k).failure := by
  have m : Moves s.Gives p.keys p.leafKeys [] w (p.pull s w).2 :=
    pull_moves_aux.1 p (List.Subset.refl _) (List.Subset.refl _) w fun ⟨f, e⟩ => absurd e (h f)
  exact m.failure_eq List.not_mem_nil

theorem failure_pullAll {ps : List Producer} (h : ∀ f, (pullAll s w ps).1 ≠ .failed f) :
    ((pullAll s w ps).2.slot k).failure = (w.slot k).failure := by
  have m : Moves s.Gives (keysAll ps) (leafKeysAll ps) [] w (pullAll s w ps).2 :=
    pull_moves_aux.2 ps (List.Subset.refl _) (List.Subset.refl _) w fun ⟨f, e⟩ => absurd e (h f)
  exact m.failure_eq List.not_mem_nil

end Producer

end GridStream
