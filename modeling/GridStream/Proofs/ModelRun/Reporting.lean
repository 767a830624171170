import GridStream.Proofs.ModelRun.Extension
import GridStream.Proofs.ModelRun.Session

/-!
# Progress messages and data

Where progress messages go, and whether a sink fails on them, makes no difference to anything else.
Worlds that are equal but for that (`World.SameData`) stay so whatever is done in both, and all that
is done to the progress of a world is that the announced messages are passed on, in order
(`World.Delivers`). So the answers of a session, the producers, the files that were opened, read and
closed and the messages do not depend on the sink, not even if somebody else tampers with it between
the steps (`Session.reporting_harmless`).
-/

namespace GridStream

/-- The message that is announced. -/
def Event.message? : Event → Option String
  | .announced message => some message
  | _ => none

namespace World

/-- Worlds that are equal but for the progress messages that were delivered. -/
structure SameData (v w : World) : Prop where
  slots : w.slots = v.slots
  opened : w.opened = v.opened
  trace : w.trace = v.trace

/-- Whether the messages that were announced between two worlds, and only they, were passed on, in
order. The events of the trace have the last one first. -/
def Delivers (v w : World) : Prop :=
  ∃ es, w.trace = es ++ v.trace ∧
    w.progress = (es.reverse.filterMap Event.message?).foldl Progress.notify v.progress

variable {u v w : World}

namespace SameData

theorem refl (w : World) : w.SameData w := ⟨rfl, rfl, rfl⟩

theorem slot_eq (h : v.SameData w) (k : Nat) : w.slot k = v.slot k := by
  rw [slot, slot, h.slots]

theorem record (h : v.SameData w) (e : Event) : (v.record e).SameData (w.record e) :=
  ⟨h.slots, h.opened, congrArg (e :: ·) h.trace⟩

theorem modify (h : v.SameData w) (key : Nat) (f : Slot → Slot) :
    (v.modify key f).SameData (w.modify key f) :=
  ⟨by simp only [World.modify, h.slots], h.opened, h.trace⟩

theorem announce (h : v.SameData w) (message : String) :
    (v.announce message).SameData (w.announce message) :=
  ⟨h.slots, h.opened, congrArg (Event.announced message :: ·) h.trace⟩

theorem release (h : v.SameData w) (key : Nat) : (v.release key).SameData (w.release key) := by
  unfold World.release
  rw [h.slot_eq]
  cases (v.slot key).handle with
  | none => exact h
  | some held => exact (h.modify key _).record _

theorem take (h : v.SameData w) (key : Nat) (start : Instant) (file : DataFile) :
    (v.take key start file).SameData (w.take key start file) := by
  have hr := h.record (.opened v.opened start)
  have ho : ({ v.record (.opened v.opened start) with opened := v.opened + 1 } : World).SameData
      { w.record (.opened v.opened start) with opened := v.opened + 1 } :=
    ⟨hr.slots, rfl, hr.trace⟩
  unfold World.take
  rw [h.opened]
  exact ho.modify key _

theorem readHeld (h : v.SameData w) (key : Nat) (name : String) (index : Int) :
    Coupled SameData (v.readHeld key name index) (w.readHeld key name index) := by
  unfold World.readHeld
  rw [h.slot_eq]
  cases (v.slot key).handle with
  | none => exact ⟨rfl, h⟩
  | some held => exact ⟨rfl, h.record _⟩

end SameData

namespace Delivers

theorem refl (w : World) : w.Delivers w := ⟨[], rfl, rfl⟩

theorem record (h : u.Delivers v) {e : Event} (he : e.message? = none) :
    u.Delivers (v.record e) := by
  obtain ⟨es, ht, hp⟩ := h
  refine ⟨e :: es, by rw [trace_record, ht, List.cons_append], ?_⟩
  rw [List.reverse_cons, List.filterMap_append, List.filterMap_cons_none he, List.filterMap_nil,
    List.append_nil]
  exact hp

theorem announce (h : u.Delivers v) (message : String) : u.Delivers (v.announce message) := by
  obtain ⟨es, ht, hp⟩ := h
  refine ⟨.announced message :: es, congrArg (Event.announced message :: ·) ht, ?_⟩
  rw [List.reverse_cons, List.filterMap_append, List.foldl_append, ← hp]
  rfl

theorem modify (h : u.Delivers v) (key : Nat) (f : Slot → Slot) : u.Delivers (v.modify key f) := h

theorem release (h : u.Delivers v) (key : Nat) : u.Delivers (v.release key) := by
  unfold World.release
  split
  · exact h
  · exact (h.modify key _).record rfl

theorem take (h : u.Delivers v) (key : Nat) (start : Instant) (file : DataFile) :
    u.Delivers (v.take key start file) :=
  h.record (e := .opened v.opened start) rfl

theorem readHeld (h : u.Delivers v) (key : Nat) (name : String) (index : Int) :
    u.Delivers (v.readHeld key name index).2 := by
  unfold World.readHeld
  split
  · exact h
  · exact h.record rfl

theorem of_grown (h : v.Grown w) : v.Delivers w := ⟨[], h.rest.2.1, h.rest.2.2⟩

end Delivers

end World

/-! ## Producers -/

namespace Producer
open World

/-- The data stay the same while pulls are reported to different sinks. -/
theorem lockstep_sameData (u : World) (keys : List Nat) :
    Lockstep id keys fun v w => v.SameData w ∧ u.Delivers v where
  timestamp h _ := by rw [id, h.1.slot_eq]
  failure h _ := by rw [id, h.1.slot_eq]
  pulled h _ := ⟨h.1.record _, h.2.record rfl⟩
  applied h _ := ⟨h.1.record _, h.2.record rfl⟩
  stamp h _ _ := ⟨h.1.modify _ _, h.2.modify _ _⟩
  halt h _ _ := ⟨h.1.modify _ _, h.2.modify _ _⟩
  release h _ := ⟨h.1.release _, h.2.release _⟩
  position h _ := by rw [id, h.1.slot_eq]
  fileTime h _ := by rw [id, h.1.slot_eq]
  place h _ _ := ⟨h.1.modify _ _, h.2.modify _ _⟩
  announce h message := ⟨h.1.announce message, h.2.announce message⟩
  requested h _ := ⟨h.1.record _, h.2.record rfl⟩
  take h _ start file := ⟨h.1.take _ start file, h.2.take _ start file⟩
  readHeld h _ name index :=
    have hr := h.1.readHeld _ name index
    ⟨hr.1, hr.2, h.2.readHeld _ name index⟩

variable {s : Source} {p : Producer} {v w : World}

theorem pull_sameData (s : Source) (p : Producer) (h : v.SameData w) :
    Coupled SameData (p.pull s v) (p.pull s w) ∧ v.Delivers (p.pull s v).2 := by
  have hp := (lockstep_sameData v p.keys).simulation.pull (s := s) ⟨h, .refl v⟩
    (List.Subset.refl p.keys)
  rw [rename_id] at hp
  exact ⟨⟨hp.1, hp.2.1⟩, hp.2.2⟩

theorem close_sameData (p : Producer) (h : v.SameData w) :
    (close v p).SameData (close w p) ∧ v.Delivers (close v p) := by
  have hp := related_close (R := fun v' w' => v'.SameData w' ∧ v.Delivers v') (ρ := id)
    (fun h hk => (lockstep_sameData v p.keys).release h hk) ⟨h, .refl v⟩
    (List.Subset.refl p.keys)
  rwa [rename_id] at hp

end Producer

/-! ## Sessions -/

theorem extends_sameData : World.Extends id World.SameData where
  next h := by rw [id, h.slots]
  addSlot h slot _ := ⟨by simp only [World.addSlot, h.slots], h.opened, h.trace⟩

namespace Session
open Producer World ModelRun

variable {run : ModelRun} {s : Source} {σ τ : Session}

/-- Sessions that are equal but for the progress messages that were delivered. -/
structure SameData (σ τ : Session) : Prop where
  world : σ.world.SameData τ.world
  known : τ.known = σ.known

theorem receive_sameData (h : σ.SameData τ) (user i : Nat) {x y : Attempt (Producer × World)}
    (hxy : Made id World.SameData x y) (hx : ∀ p v, x = .ok (p, v) → σ.world.Grown v) :
    (τ.receive user i y).1 = (σ.receive user i x).1 ∧
      (σ.receive user i x).2.SameData (τ.receive user i y).2 ∧
      σ.world.Delivers (σ.receive user i x).2.world := by
  cases hxy with
  | refused f => exact ⟨rfl, h, .refl _⟩
  | @made p v w hs =>
    rw [rename_id]
    exact ⟨rfl, ⟨hs, by simp only [receive, h.known]⟩, .of_grown (hx p v rfl)⟩

/-- A step gives the same answer and leaves the same data, and passes on what it announces. -/
theorem act_sameData (run : ModelRun) (s : Source) (h : σ.SameData τ) (user : Nat) (a : Action) :
    (τ.act run s user a).1 = (σ.act run s user a).1 ∧
      (σ.act run s user a).2.SameData (τ.act run s user a).2 ∧
      σ.world.Delivers (σ.act run s user a).2.world := by
  cases a with
  | create i a =>
    exact receive_sameData h user i (run.access_made extends_sameData h.world a)
      fun p v hp => (access_created hp).grown
  | combine i name rule inputs =>
    simp only [act, h.known]
    cases inputs.mapM (σ.known user) with
    | none => exact ⟨rfl, h, .refl _⟩
    | some ps =>
      have hm := addCombined_made extends_sameData h.world name rule ps
      rw [map_rename_id] at hm
      exact receive_sameData h user i hm fun p v hp => (addCombined_eq_ok hp).1
  | pull i =>
    simp only [act, h.known]
    cases σ.known user i with
    | none => exact ⟨rfl, h, .refl _⟩
    | some p =>
      obtain ⟨⟨he, hw⟩, hd⟩ := p.pull_sameData s h.world
      refine ⟨?_, ⟨hw, rfl⟩, hd⟩
      simp only [he, Producer.timestamp, Producer.halted, hw.slot_eq]
  | close i =>
    simp only [act, h.known]
    cases σ.known user i with
    | none => exact ⟨rfl, h, .refl _⟩
    | some p =>
      obtain ⟨hw, hd⟩ := p.close_sameData h.world
      exact ⟨rfl, ⟨hw, rfl⟩, hd⟩

/-- The session with something done to its progress: messages are fetched from a queue, say, or the
sink is replaced by another. -/
def tampered (σ : Session) (f : Progress → Progress) : Session :=
  { σ with world := { σ.world with progress := f σ.world.progress } }

theorem SameData.tampered (h : σ.SameData τ) (f g : Progress → Progress) :
    (σ.tampered f).SameData (τ.tampered g) :=
  ⟨⟨h.world.slots, h.world.opened, h.world.trace⟩, h.known⟩

/-- The answers to steps and the session behind them, where something is done to the progress ahead
of each step. The steps are counted from `n`. -/
def observed (run : ModelRun) (s : Source) (tamper : Nat → Progress → Progress) (n : Nat)
    (σ : Session) : List Step → List (Nat × Answer) × Session
  | [] => ([], σ)
  | a :: as =>
    let (answer, σ) := (σ.tampered (tamper n)).act run s a.user a.action
    let (answers, σ) := observed run s tamper (n + 1) σ as
    ((a.user, answer) :: answers, σ)

theorem observed_sameData (run : ModelRun) (s : Source) (tamper tamper' : Nat → Progress → Progress)
    (n : Nat) (h : σ.SameData τ) (steps : List Step) :
    (observed run s tamper' n τ steps).1 = (observed run s tamper n σ steps).1 ∧
      (observed run s tamper n σ steps).2.SameData (observed run s tamper' n τ steps).2 := by
  induction steps generalizing n σ τ with
  | nil => exact ⟨rfl, h⟩
  | cons a as ih =>
    obtain ⟨he, hd, -⟩ := act_sameData run s (h.tampered (tamper n) (tamper' n)) a.user a.action
    obtain ⟨he', hd'⟩ := ih (n + 1) hd
    exact ⟨by simp only [observed, he, he'], hd'⟩

/-- Progress reporting is harmless. Whatever becomes of the messages, and whatever is done to the
sinks between the steps, the answers are the same, with times and halted flags, and so are the
producers, their slots and all that happened: which files were opened, read and closed, and which
messages were announced. The messages that a step announces are passed on in order, and no message
is passed on otherwise. A sink that fails costs a warning and no more. -/
theorem reporting_harmless (run : ModelRun) (s : Source) (progress progress' : Progress)
    (tamper tamper' : Nat → Progress → Progress) (steps : List Step) :
    let x := observed run s tamper 0 (fresh progress) steps
    let y := observed run s tamper' 0 (fresh progress') steps
    y.1 = x.1 ∧ y.2.known = x.2.known ∧ y.2.world.slots = x.2.world.slots ∧
      y.2.world.opened = x.2.world.opened ∧ y.2.world.trace = x.2.world.trace ∧
    (∀ (σ : Session) (user : Nat) (a : Action), ∃ es,
      (σ.act run s user a).2.world.trace = es ++ σ.world.trace ∧
      (σ.act run s user a).2.world.progress =
        (es.reverse.filterMap Event.message?).foldl Progress.notify σ.world.progress) ∧
    ∀ (p : Progress) (message : String),
      match p.sink with
      | none => p.notify message = p
      | some sink =>
        (p.notify message).sink = some (sink.send message).1 ∧
        (p.notify message).warnings = p.warnings ++ ((sink.send message).2.map fun f =>
          (⟨.warning, s!"Progress sink failed on '{message}': {f.text}"⟩ : Entry)).toList := by
  have h : (fresh progress).SameData (fresh progress') := ⟨⟨rfl, rfl, rfl⟩, rfl⟩
  obtain ⟨he, hd⟩ := observed_sameData run s tamper tamper' 0 h steps
  refine ⟨he, hd.known, hd.world.slots, hd.world.opened, hd.world.trace, fun σ user a => ?_,
    fun p message => ?_⟩
  · exact (act_sameData run s (τ := σ) ⟨.refl _, rfl⟩ user a).2.2
  · unfold Progress.notify
    cases p.sink with
    | none => rfl
    | some sink =>
      cases hs : sink.send message with
      | mk sink' f => cases f <;> simp [hs]

end Session

end GridStream
