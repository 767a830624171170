import GridStream.Proofs.Producer.Close
import Mathlib.Data.List.Count
import Mathlib.Data.List.Induction

/-!
# Who owns an open file

The trace of a world tells how often each file was opened and closed. The invariant `World.Owned`
says that each file that was ever opened is either held by exactly one raw producer and not closed
yet, or held by none and closed once, and that a slot with a file has the start of that file noted.
Every move keeps it (`World.Owned.move`), hence every sequence of pulls and closings does
(`Producer.owned_calls`), whatever the files are and even if they change between the pulls.
-/

namespace GridStream

namespace World

/-- How often a file was opened. -/
def opens (w : World) (id : Nat) : Nat := w.trace.countP (·.opened? == some id)

/-- How often a file was closed. -/
def closes (w : World) (id : Nat) : Nat := w.trace.countP (·.closed? == some id)

/-- Whether the producer of a key holds a file. -/
def Holds (w : World) (key id : Nat) : Prop := ∃ h, (w.slot key).handle = some h ∧ h.id = id

/-- A world in which no file was opened yet. -/
structure Untouched (w : World) : Prop where
  opened : w.opened = 0
  trace : w.trace = []
  handle : ∀ k, (w.slot k).handle = none
  fileTime : ∀ k, (w.slot k).fileTime = none

/-- All files that were ever opened have an owner among the given keys, or were closed once. -/
structure Owned (w : World) (leaves : List Nat) : Prop where
  /-- Files that were not opened yet occur nowhere. -/
  fresh : ∀ id, w.opened ≤ id → w.opens id = 0 ∧ w.closes id = 0 ∧ ∀ k, ¬ w.Holds k id
  once : ∀ id < w.opened, w.opens id = 1
  account : ∀ id < w.opened, (w.closes id = 0 ∧ ∃ k ∈ leaves, w.Holds k id) ∨
    (w.closes id = 1 ∧ ∀ k, ¬ w.Holds k id)
  unique : ∀ {k k' id}, w.Holds k id → w.Holds k' id → k = k'
  fileTime : ∀ k, (w.slot k).fileTime = (w.slot k).handle.map (·.start)
  noted : ∀ {k h}, (w.slot k).handle = some h → .opened h.id h.start ∈ w.trace

theorem Untouched.owned {w : World} (h : w.Untouched) (leaves : List Nat) : w.Owned leaves := by
  have hh : ∀ k id, ¬ w.Holds k id := fun k id ⟨_, e, _⟩ => by simp [h.handle k] at e
  refine ⟨fun id _ => ⟨by simp [opens, h.trace], by simp [closes, h.trace], (hh · id)⟩,
    fun id hid => ?_, fun id hid => ?_, fun hk => absurd hk (hh _ _), fun k => ?_, fun e => ?_⟩
  · simp [h.opened] at hid
  · simp [h.opened] at hid
  · rw [h.fileTime, h.handle, Option.map_none]
  · simp [h.handle] at e

end World

variable {s : Source} {given : Instant → DataFile → Prop} {keys leaves halts : List Nat}
  {w w' : World}

namespace World
variable {key k id : Nat} {start : Instant} {file : DataFile}

/-! ## What opening and closing change -/

theorem opens_release : (w.release key).opens id = w.opens id := by
  cases hk : (w.slot key).handle with
  | none => rw [release_of_handle_none hk]
  | some h => simp [release, hk, closeFile, opens, Event.opened?]

theorem closes_release {h : Handle} (hk : (w.slot key).handle = some h) :
    (w.release key).closes id = w.closes id + if h.id = id then 1 else 0 := by
  simp [release, hk, closeFile, closes, Event.closed?, List.countP_cons]

theorem holds_release : (w.release key).Holds k id ↔ k ≠ key ∧ w.Holds k id := by
  by_cases e : k = key
  · subst e
    simp [Holds]
  · simp [Holds, slot_release_of_ne e, e]

theorem opens_take : (w.take key start file).opens id =
    w.opens id + if w.opened = id then 1 else 0 := by
  simp [take, opens, Event.opened?, List.countP_cons]

theorem closes_take : (w.take key start file).closes id = w.closes id := by
  simp [take, closes, Event.closed?]

theorem slot_take_of_ne (h : k ≠ key) : (w.take key start file).slot k = w.slot k :=
  slot_modify_of_ne h

theorem holds_take (hs : w.HasSlot key) (hfree : (w.slot key).handle = none) :
    (w.take key start file).Holds k id ↔ (k = key ∧ id = w.opened) ∨ w.Holds k id := by
  by_cases e : k = key
  · subst e
    simp [Holds, slot_take_self hs, hfree, eq_comm]
  · simp [Holds, slot_take_of_ne e, e]

end World

/-! ## The account of open files -/

theorem World.Owned.lt {k id : Nat} (H : w.Owned leaves) (h : w.Holds k id) : id < w.opened := by
  rcases Nat.lt_or_ge id w.opened with hid | hid
  · exact hid
  · exact absurd h ((H.fresh id hid).2.2 k)

namespace Move

/-- A world with the same files open, and the same opened and closed. -/
private theorem owned_congr (H : w.Owned leaves) (hn : w'.opened = w.opened)
    (ho : ∀ id, w'.opens id = w.opens id) (hc : ∀ id, w'.closes id = w.closes id)
    (ht : ∀ e ∈ w.trace, e ∈ w'.trace)
    (hs : ∀ k, (w'.slot k).handle = (w.slot k).handle ∧
      (w'.slot k).fileTime = (w.slot k).fileTime) : w'.Owned leaves := by
  have hh : ∀ k id, w'.Holds k id ↔ w.Holds k id := fun k id => by
    unfold World.Holds
    rw [(hs k).1]
  constructor
  case fresh =>
    simpa only [hn, ho, hc, hh] using H.fresh
  case once =>
    simpa only [hn, ho] using H.once
  case account =>
    simpa only [hn, hc, hh] using H.account
  case unique =>
    exact fun hk hk' => H.unique ((hh _ _).1 hk) ((hh _ _).1 hk')
  case fileTime =>
    simpa only [(hs _).1, (hs _).2] using H.fileTime
  case noted =>
    intro k h e
    exact ht _ (H.noted ((hs k).1 ▸ e))

private theorem owned_release {key : Nat} (H : w.Owned leaves) : (w.release key).Owned leaves := by
  cases hk : (w.slot key).handle with
  | none => rwa [World.release_of_handle_none hk]
  | some h =>
    have hkey : w.Holds key h.id := ⟨h, hk, rfl⟩
    constructor
    case fresh =>
      intro id hid
      rw [World.opened_release] at hid
      obtain ⟨h₁, h₂, h₃⟩ := H.fresh id hid
      have hne : h.id ≠ id := fun e => h₃ key (e ▸ hkey)
      refine ⟨by rw [World.opens_release, h₁], by rw [World.closes_release hk, h₂, if_neg hne],
        fun k hold => ?_⟩
      exact h₃ k (World.holds_release.1 hold).2
    case once =>
      intro id hid
      rw [World.opened_release] at hid
      rw [World.opens_release, H.once id hid]
    case account =>
      intro id hid
      rw [World.opened_release] at hid
      by_cases e : h.id = id
      · -- The file that is closed now: only its holder could hold it.
        subst e
        rcases H.account h.id hid with ⟨h₁, -⟩ | ⟨-, h₂⟩
        · refine .inr ⟨by rw [World.closes_release hk, h₁, if_pos rfl], fun k hold => ?_⟩
          obtain ⟨hne, hold⟩ := World.holds_release.1 hold
          exact hne (H.unique hold hkey)
        · exact absurd hkey (h₂ key)
      · rw [World.closes_release hk, if_neg e, Nat.add_zero]
        refine (H.account id hid).imp (And.imp_right ?_) (And.imp_right ?_)
        · rintro ⟨k, hl, h', hk', hid'⟩
          refine ⟨k, hl, World.holds_release.2 ⟨?_, h', hk', hid'⟩⟩
          rintro rfl
          rw [hk] at hk'
          cases hk'
          exact e hid'
        · exact fun h₂ k hold => h₂ k (World.holds_release.1 hold).2
    case unique =>
      intro k k' id h₁ h₂
      exact H.unique (World.holds_release.1 h₁).2 (World.holds_release.1 h₂).2
    case fileTime =>
      intro k
      by_cases e : k = key
      · subst e
        simp [World.release, hk, World.closeFile,
          World.slot_modify_self (World.hasSlot_of_handle hk)]
      · rw [World.slot_release_of_ne e, H.fileTime]
    case noted =>
      intro k h' e
      have hne : k ≠ key := by
        rintro rfl
        simp at e
      rw [World.slot_release_of_ne hne] at e
      have hn := H.noted e
      simp [World.release, hk, World.closeFile, hn]

private theorem owned_take {key : Nat} {start : Instant} {file : DataFile} (H : w.Owned leaves)
    (hs : w.HasSlot key) (hl : key ∈ leaves) (hfree : (w.slot key).handle = none) :
    (w.take key start file).Owned leaves := by
  have hh : ∀ {k id}, (w.take key start file).Holds k id ↔ _ := World.holds_take hs hfree
  constructor
  case fresh =>
    intro id hid
    have hid : w.opened + 1 ≤ id := hid
    obtain ⟨h₁, h₂, h₃⟩ := H.fresh id (by omega)
    refine ⟨by rw [World.opens_take, h₁, if_neg (by omega)], by rw [World.closes_take, h₂],
      fun k hk => ?_⟩
    rcases hh.1 hk with ⟨-, e⟩ | hk
    · omega
    · exact h₃ k hk
  case once =>
    intro id hid
    have hid : id < w.opened + 1 := hid
    by_cases e : w.opened = id
    · rw [World.opens_take, if_pos e, (H.fresh id (by omega)).1]
    · rw [World.opens_take, if_neg e, H.once id (by omega)]
  case account =>
    intro id hid
    have hid : id < w.opened + 1 := hid
    rw [World.closes_take]
    by_cases e : w.opened = id
    · exact .inl ⟨(H.fresh id (by omega)).2.1, key, hl, hh.2 (.inl ⟨rfl, e.symm⟩)⟩
    · refine (H.account id (by omega)).imp (And.imp_right ?_) (And.imp_right ?_)
      · exact fun ⟨k, hl, hk⟩ => ⟨k, hl, hh.2 (.inr hk)⟩
      · intro h₂ k hk
        rcases hh.1 hk with ⟨-, e'⟩ | hk
        · exact e e'.symm
        · exact h₂ k hk
  case unique =>
    intro k k' id h₁ h₂
    rw [hh] at h₁ h₂
    rcases h₁ with ⟨rfl, e⟩ | h₁ <;> rcases h₂ with ⟨rfl, e'⟩ | h₂
    · rfl
    · exact absurd (H.lt h₂) (by omega)
    · exact absurd (H.lt h₁) (by omega)
    · exact H.unique h₁ h₂
  case fileTime =>
    intro k
    by_cases e : k = key
    · rw [e, World.slot_take_self hs, Option.map_some]
    · rw [World.slot_take_of_ne e, H.fileTime]
  case noted =>
    intro k h e
    by_cases hk : k = key
    · subst hk
      rw [World.slot_take_self hs] at e
      cases e
      simp [World.take]
    · rw [World.slot_take_of_ne hk] at e
      exact List.mem_cons_of_mem _ (H.noted e)

end Move

namespace World.Owned

/-- Every move keeps the account of open files. -/
theorem move (H : w.Owned leaves) (hs : ∀ k ∈ leaves, w.HasSlot k)
    (m : Move given keys leaves halts w w') : w'.Owned leaves := by
  cases m with
  | note e progress ho hc =>
    refine Move.owned_congr H rfl (fun id => ?_) (fun id => ?_)
      (fun _ => List.mem_cons_of_mem e) fun k => ⟨rfl, rfl⟩
    · simp [opens, ho]
    · simp [closes, hc]
  | change f _ hf =>
    refine Move.owned_congr H rfl (fun _ => rfl) (fun _ => rfl) (fun _ h => h) fun k => ⟨?_, ?_⟩
    · exact slot_modify_congr Slot.handle (hf _).1
    · exact slot_modify_congr Slot.fileTime (hf _).2.1
  | halt f _ _ =>
    refine Move.owned_congr H rfl (fun _ => rfl) (fun _ => rfl) (fun _ h => h) fun k => ⟨?_, ?_⟩
    · exact slot_modify_congr Slot.handle rfl
    · exact slot_modify_congr Slot.fileTime rfl
  | release hk => exact Move.owned_release H
  | take hk hfree => exact Move.owned_take H (hs _ hk) hk hfree

theorem moves (H : w.Owned leaves) (hs : ∀ k ∈ leaves, w.HasSlot k)
    (m : Moves given keys leaves halts w w') : w'.Owned leaves := by
  induction m with
  | refl => exact H
  | tail m₁ m ih =>
    exact ih.move (fun k hk => Moves.hasSlot m₁ (hs k hk)) m

end World.Owned

/-- A file that is held after some moves was held before, or was given to one of them. -/
theorem Move.handle_given {k : Nat} {h : Handle} (m : Move given keys leaves halts w w')
    (hk : (w'.slot k).handle = some h) :
    (w.slot k).handle = some h ∨ given h.start h.file := by
  cases m with
  | note => exact .inl hk
  | change f _ hf => exact .inl ((World.slot_modify_congr Slot.handle (hf _).1).symm.trans hk)
  | halt f => exact .inl ((World.slot_modify_congr Slot.handle rfl).symm.trans hk)
  | @release key =>
    by_cases e : k = key
    · rw [e, World.handle_release_self] at hk
      cases hk
    · exact .inl (World.slot_release_of_ne e ▸ hk)
  | @take key start file _ hfree hfile =>
    by_cases e : k = key ∧ w.HasSlot k
    · obtain ⟨rfl, hs⟩ := e
      rw [World.slot_take_self hs] at hk
      cases hk
      exact .inr hfile
    · have hsame : (w.take key start file).slot k = w.slot k := by
        by_cases hne : k = key
        · subst hne
          exact World.slot_modify_of_not_hasSlot fun hs => e ⟨rfl, hs⟩
        · exact World.slot_modify_of_ne hne
      exact .inl (hsame ▸ hk)

theorem Moves.handle_given {k : Nat} {h : Handle} (m : Moves given keys leaves halts w w')
    (hk : (w'.slot k).handle = some h) :
    (w.slot k).handle = some h ∨ given h.start h.file := by
  induction m with
  | refl => exact .inl hk
  | tail _ m ih => exact (m.handle_given hk).elim ih .inr

/-! ## Sequences of calls -/

namespace Producer

/-- What can be done with a producer. Every pull may see other files. -/
inductive Call
  | pull (s : Source)
  | close

/-- The world after a call. -/
def call (p : Producer) (w : World) : Call → World
  | .pull s => (p.pull s w).2
  | .close => close w p

/-- The world after several calls. -/
def calls (p : Producer) (w : World) (cs : List Call) : World := cs.foldl p.call w

/-- No raw producer of a tree holds a file, and all files that were opened are closed. -/
def AllReturned (p : Producer) (w : World) : Prop :=
  (∀ k ∈ p.leafKeys, (w.slot k).handle = none ∧ (w.slot k).fileTime = none) ∧
    ∀ id < w.opened, w.closes id = 1

variable {p : Producer} {cs : List Call}

theorem calls_concat {c : Call} : p.calls w (cs ++ [c]) = p.call (p.calls w cs) c := by
  simp [calls]

/-- The files that a call may open. -/
def Call.Gives : Call → Instant → DataFile → Prop
  | .pull s => s.Gives
  | .close => fun _ _ => False

theorem call_moves (c : Call) : Moves c.Gives p.keys p.leafKeys p.keys w (p.call w c) := by
  cases c with
  | pull s => exact p.pull_moves
  | close => exact close_moves (List.Subset.refl _)

theorem hasSlot_call {c : Call} {k : Nat} (h : w.HasSlot k) : (p.call w c).HasSlot k :=
  (call_moves c).hasSlot h

/-- The account of open files is kept by every sequence of calls. -/
theorem owned_calls (hp : ∀ k ∈ p.leafKeys, w.HasSlot k) (H : w.Owned p.leafKeys)
    (cs : List Call) : (p.calls w cs).Owned p.leafKeys ∧
      ∀ k ∈ p.leafKeys, (p.calls w cs).HasSlot k := by
  induction cs using List.reverseRecOn with
  | nil => exact ⟨H, hp⟩
  | append_singleton cs c ih =>
    rw [calls_concat]
    exact ⟨ih.1.moves ih.2 (call_moves c), fun k hk => hasSlot_call (ih.2 k hk)⟩

/-- A file that is held was given by the files that one of the pulls saw. -/
theorem given_calls (hw : w.Untouched) (cs : List Call) {k : Nat} {h : Handle}
    (hk : ((p.calls w cs).slot k).handle = some h) :
    ∃ s, .pull s ∈ cs ∧ s.openAt h.start = .ok h.file := by
  induction cs using List.reverseRecOn generalizing h with
  | nil => simp [calls, hw.handle] at hk
  | append_singleton cs c ih =>
    rw [calls_concat] at hk
    rcases (call_moves c).handle_given hk with hk | hk
    · obtain ⟨s, hs, ho⟩ := ih hk
      exact ⟨s, List.mem_append_left _ hs, ho⟩
    · cases c with
      | pull s => exact ⟨s, by simp, hk⟩
      | close => exact hk.elim

/-- A tree whose root is halted holds no file: it was closed when it failed, and is not pulled any
more. -/
theorem handle_calls_of_failed (hw : w.Untouched) (cs : List Call)
    (hf : ((p.calls w cs).slot p.key).failure ≠ none) {k : Nat} (hk : k ∈ p.leafKeys) :
    ((p.calls w cs).slot k).handle = none := by
  induction cs using List.reverseRecOn with
  | nil => exact hw.handle k
  | append_singleton cs c ih =>
    rw [calls_concat] at hf ⊢
    cases c with
    | close => exact handle_close hk
    | pull s =>
      change ((p.pull s _).2.slot p.key).failure ≠ none at hf
      change ((p.pull s _).2.slot k).handle = none
      cases hf' : ((p.calls w cs).slot p.key).failure with
      | some f =>
        rw [pull_of_failed hf']
        exact ih (by simp [hf'])
      | none =>
        refine handle_pull hf' (fun g hg => hf ?_) hk
        rw [failure_pull (by simp [hg]), hf']

/-- What no raw producer of the tree holds is closed. -/
theorem allReturned_of_handle (H : w.Owned p.leafKeys)
    (h : ∀ k ∈ p.leafKeys, (w.slot k).handle = none) : p.AllReturned w := by
  refine ⟨fun k hk => ⟨h k hk, by rw [H.fileTime, h k hk, Option.map_none]⟩, fun id hid => ?_⟩
  rcases H.account id hid with ⟨-, k, hk, e, he, -⟩ | ⟨hc, -⟩
  · simp [h k hk] at he
  · exact hc

end Producer

namespace World

/-- What the reading of a single record does with files: it opens none, or it opens one, reads
once from it and closes it. -/
theorem trace_readAt (w : World) (s : Source) (name : String) (time : Instant)
    (record file : Span) :
    (w.readAt s name time record file).2.slots = w.slots ∧
    (((∃ f, (w.readAt s name time record file).1 = .error f) ∧
        (w.readAt s name time record file).2.opened = w.opened ∧
        ∃ asked : List Instant, (w.readAt s name time record file).2.trace =
          asked.map Event.requested ++ w.trace) ∨
      ∃ start index, (w.readAt s name time record file).2.opened = w.opened + 1 ∧
        (w.readAt s name time record file).2.trace =
          [.closed w.opened start, .read w.opened name index, .opened w.opened start,
            .requested start] ++ w.trace) := by
  cases hw : Window.make? time.midnight time record file with
  | error f =>
    have h : w.readAt s name time record file = (.error f, w) := by rw [readAt, hw]
    rw [h]
    exact ⟨rfl, .inl ⟨⟨f, rfl⟩, rfl, [], rfl⟩⟩
  | ok window =>
    cases hs : window.fileStart? time with
    | none =>
      have h : w.readAt s name time record file = (.error .outOfCalendar, w) := by
        simp only [readAt, hw, hs]
      rw [h]
      exact ⟨rfl, .inl ⟨⟨_, rfl⟩, rfl, [], rfl⟩⟩
    | some start =>
      cases ho : s.openAt start with
      | error f =>
        have h : w.readAt s name time record file = (.error f, w.record (.requested start)) := by
          simp only [readAt, hw, hs, openFile, ho]
        rw [h]
        exact ⟨rfl, .inl ⟨⟨f, rfl⟩, rfl, [start], rfl⟩⟩
      | ok file =>
        simp only [readAt, hw, hs, openFile, ho, readRecord, closeFile]
        exact ⟨rfl, .inr ⟨start, window.recordIndex time, rfl, rfl⟩⟩

end World

/-! ## Ownership -/

namespace Producer

/-- Whatever sequence of pulls and closings a tree has been through: every file that was opened is
held by exactly one raw producer or was closed exactly once, and a file that is held is the one
that starts at the time that its holder has noted. A pull that gives no grid leaves no file open,
nor does closing the tree, nor the reading of a single record outside of trees. -/
theorem handle_ownership {p : Producer} (hw : w.Untouched) (hp : p.Placed w)
    (cs : List Call) :
    (∀ id < (p.calls w cs).opened, (p.calls w cs).opens id = 1 ∧
      (((p.calls w cs).closes id = 0 ∧ ∃! k, k ∈ p.leafKeys ∧ (p.calls w cs).Holds k id) ∨
        ((p.calls w cs).closes id = 1 ∧ ∀ k, ¬ (p.calls w cs).Holds k id))) ∧
    (∀ id, (p.calls w cs).opened ≤ id → (p.calls w cs).opens id = 0 ∧
      (p.calls w cs).closes id = 0 ∧ ∀ k, ¬ (p.calls w cs).Holds k id) ∧
    (∀ k h, ((p.calls w cs).slot k).handle = some h →
      ((p.calls w cs).slot k).fileTime = some h.start ∧
      .opened h.id h.start ∈ (p.calls w cs).trace ∧
      ∃ s, .pull s ∈ cs ∧ s.openAt h.start = .ok h.file) ∧
    (∀ s, (∀ g, (p.pull s (p.calls w cs)).1 ≠ .item g) →
      p.AllReturned (p.pull s (p.calls w cs)).2) ∧
    p.AllReturned (close (p.calls w cs) p) ∧
    ∀ (v : World) (s : Source) (name : String) (time : Instant) (record file : Span),
      (v.readAt s name time record file).2.slots = v.slots ∧
      (((∃ f, (v.readAt s name time record file).1 = .error f) ∧
          (v.readAt s name time record file).2.opened = v.opened ∧
          ∃ asked : List Instant, (v.readAt s name time record file).2.trace =
            asked.map Event.requested ++ v.trace) ∨
        ∃ start index, (v.readAt s name time record file).2.opened = v.opened + 1 ∧
          (v.readAt s name time record file).2.trace =
            [.closed v.opened start, .read v.opened name index, .opened v.opened start,
              .requested start] ++ v.trace) := by
  have hs : ∀ k ∈ p.leafKeys, w.HasSlot k := fun k hk => hp.hasSlot hk
  obtain ⟨H, hs'⟩ := owned_calls hs (hw.owned p.leafKeys) cs
  -- One call more is a sequence of calls as well.
  have next : ∀ c, (p.call (p.calls w cs) c).Owned p.leafKeys := fun c =>
    calls_concat ▸ (owned_calls hs (hw.owned p.leafKeys) (cs ++ [c])).1
  refine ⟨fun id hid => ⟨H.once id hid, ?_⟩, H.fresh, fun k h hk => ⟨?_, H.noted hk, ?_⟩,
    fun s hg => ?_, ?_, fun v s name time record file => v.trace_readAt s name time record file⟩
  · refine (H.account id hid).imp (And.imp_right ?_) fun h => h
    rintro ⟨k, hk, hold⟩
    exact ⟨k, ⟨hk, hold⟩, fun k' ⟨_, hold'⟩ => H.unique hold' hold⟩
  · rw [H.fileTime, hk, Option.map_some]
  · exact given_calls hw cs hk
  · refine allReturned_of_handle (next (.pull s)) fun k hk => ?_
    cases hf : ((p.calls w cs).slot p.key).failure with
    | some f =>
      rw [pull_of_failed hf]
      exact handle_calls_of_failed hw cs (by simp [hf]) hk
    | none => exact handle_pull hf hg hk
  · exact allReturned_of_handle (next .close) fun k hk => handle_close hk

/-- Where the second input cannot be read, the file of the first one is closed too. -/
theorem handle_ownership_sample : sampleWorld.Untouched ∧ sample.Placed sampleWorld ∧
    sample.AllReturned (sample.pull (sampleSource fun _ name => name == "A") sampleWorld).2 :=
  have hw : sampleWorld.Untouched :=
    ⟨rfl, rfl, fun k => (slot_sampleWorld k).1.1, fun k => (slot_sampleWorld k).1.2⟩
  ⟨hw, sample_placed, (handle_ownership hw sample_placed []).2.2.2.1 _ nofun⟩

end Producer

end GridStream
