import GridStream.Proofs.Producer.Handles
import GridStream.Proofs.Producer.Position
import GridStream.Proofs.Producer.Reading
import GridStream.Proofs.Producer.Simulation

/-!
# Closing in between

A producer that is closed opens its files again when it is pulled next. As long as the files stay
the same this makes no difference: worlds that match but for the files that are open
(`World.Matches`) answer every pull alike, and a tree that is closed in one of them leaves them
matching. So the answers to pulls are the same with and without closings in between
(`Producer.closing_transparent`).
-/

namespace GridStream

/-- Whether the file in a slot, if there is one, is what the source gives for its start. -/
structure Slot.Current (s : Source) (slot : Slot) : Prop where
  fileTime : slot.fileTime = slot.handle.map (·.start)
  file : ∀ h, slot.handle = some h →
    s.openAt h.start = .ok h.file ∧ ∃ path, s.describe h.start = .ok path

/-- Slots that are equal but for the files in them, each of which is current. -/
structure Slot.Matches (s : Source) (a b : Slot) : Prop where
  position : b.position = a.position
  timestamp : b.timestamp = a.timestamp
  failure : b.failure = a.failure
  left : a.Current s
  right : b.Current s

/-- Whether the slots of some keys match in two worlds. -/
structure World.Matches (s : Source) (keys : List Nat) (v w : World) : Prop where
  placed : ∀ k ∈ keys, v.HasSlot k ∧ w.HasSlot k
  slot : ∀ k ∈ keys, (v.slot k).Matches s (w.slot k)

variable {s : Source} {keys : List Nat} {v v' w w' : World} {key : Nat}

namespace Slot
variable {slot a b : Slot}

theorem Current.ready (h : slot.Current s) (hf : slot.failure = none) : slot.Ready s :=
  ⟨hf, h.fileTime, h.file⟩

theorem Ready.current (h : slot.Ready s) : slot.Current s := ⟨h.fileTime, h.file⟩

theorem Matches.symm (h : a.Matches s b) : b.Matches s a :=
  ⟨h.position.symm, h.timestamp.symm, h.failure.symm, h.right, h.left⟩

end Slot

namespace World.Matches

theorem symm (h : v.Matches s keys w) : w.Matches s keys v where
  placed k hk := (h.placed k hk).symm
  slot k hk := (h.slot k hk).symm

/-- Only the slots matter. -/
theorem congr (h : v.Matches s keys w) (hv : v'.slots = v.slots) (hw : w'.slots = w.slots) :
    v'.Matches s keys w' := by
  obtain ⟨placed, slot⟩ := h
  simp only [World.HasSlot, World.slot] at *
  exact ⟨by simpa only [World.HasSlot, hv, hw] using placed,
    by simpa only [World.slot, hv, hw] using slot⟩

/-- A single slot changes in each of the two worlds. -/
theorem frame (h : v.Matches s keys w) (key : Nat)
    (hv : v'.slots.size = v.slots.size) (hw : w'.slots.size = w.slots.size)
    (hv' : ∀ k ≠ key, v'.slot k = v.slot k) (hw' : ∀ k ≠ key, w'.slot k = w.slot k)
    (hs : (v'.slot key).Matches s (w'.slot key)) : v'.Matches s keys w' where
  placed k hk := (h.placed k hk).imp (hasSlot_congr hv).2 (hasSlot_congr hw).2
  slot k hk := by
    by_cases e : k = key
    · exact e ▸ hs
    · rw [hv' k e, hw' k e]
      exact h.slot k hk

theorem modify (h : v.Matches s keys w) (hk : key ∈ keys) {f : Slot → Slot}
    (hf : (f (v.slot key)).Matches s (f (w.slot key))) :
    (v.modify key f).Matches s keys (w.modify key f) := by
  refine h.frame key size_modify size_modify (fun _ => slot_modify_of_ne)
    (fun _ => slot_modify_of_ne) ?_
  rwa [slot_modify_self (h.placed key hk).1, slot_modify_self (h.placed key hk).2]

/-- A file is closed in one of the worlds. -/
theorem release_left (h : v.Matches s keys w) (hk : key ∈ keys) :
    (v.release key).Matches s keys w := by
  have hs := h.slot key hk
  cases hh : (v.slot key).handle with
  | none => rwa [release_of_handle_none hh]
  | some held =>
    refine h.frame key size_release rfl (fun _ => slot_release_of_ne) (fun _ _ => rfl) ?_
    simp only [World.release, hh, closeFile]
    rw [slot_record, slot_modify_self (h.placed key hk).1]
    refine ⟨hs.position, hs.timestamp, hs.failure, ⟨rfl, fun _ hfile => ?_⟩, hs.right⟩
    cases hfile

theorem release (h : v.Matches s keys w) (hk : key ∈ keys) :
    (v.release key).Matches s keys (w.release key) :=
  ((h.release_left hk).symm.release_left hk).symm

end World.Matches

namespace Producer
open World

variable {name : String} {window : Window} {start time : Instant} {f : Failure} {p : Producer}

/-! ## Reading -/

/-- Stepping to a file changes at most the file in the slot. -/
theorem slot_enter (name : String) (start : Instant) (hs : w.HasSlot key)
    (hr : (w.slot key).Ready s) : ∃ held,
      (enter s w key name start).2.slot key =
        { w.slot key with handle := held, fileTime := held.map (·.start) } ∧
      ∀ h, held = some h → s.openAt h.start = .ok h.file ∧
        ∃ path, s.describe h.start = .ok path := by
  cases hfile : s.fileFor name start with
  | ok file =>
    obtain ⟨w₁, id, he, hslot⟩ := enter_of_ok hs hr hfile
    refine ⟨some ⟨id, start, file⟩, by rw [he]; exact hslot, fun h e => ?_⟩
    cases e
    exact (fileFor_eq_ok.1 hfile).symm
  | error f =>
    unfold enter
    split
    · exact ⟨(w.slot key).handle, by rw [← hr.fileTime], hr.file⟩
    · -- The file of before is closed and no other one is opened.
      refine ⟨none, ?_, nofun⟩
      rw [Option.map_none, ← slot_release_self hs hr]
      unfold Source.fileFor Attempt.within at hfile
      unfold stepInto openFile
      cases hd : s.describe start with
      | error f' => rfl
      | ok path =>
        cases ho : s.openAt start with
        | error f' => rfl
        | ok file => simp [hd, ho] at hfile

theorem slot_readRecordAt_of_error (hs : w.HasSlot key) (hr : (w.slot key).Ready s)
    (h : s.recordAt name window time = .error f) : ∃ held,
      (readRecordAt s w key name window time).2.slot key =
        { w.slot key with handle := held, fileTime := held.map (·.start) } ∧
      ∀ h, held = some h → s.openAt h.start = .ok h.file ∧
        ∃ path, s.describe h.start = .ok path := by
  have he := readRecordAt_of_error hs hr h
  unfold readRecordAt at he ⊢
  cases hw : window.fileStart? time with
  | none => exact ⟨(w.slot key).handle, by rw [← hr.fileTime], hr.file⟩
  | some start =>
    have hslot := slot_enter name start hs hr
    simp only [hw] at he ⊢
    rcases hent : enter s w key name start with ⟨f' | u, w₁⟩
    · simpa only [hent] using hslot
    · simp only [hent] at he hslot ⊢
      have hkept : (w₁.readHeld key name (window.recordIndex time)).2.slot key = w₁.slot key :=
        slot_readHeld
      rcases hread : w₁.readHeld key name (window.recordIndex time) with ⟨f' | g, w₂⟩
      · rw [hread] at hkept
        rwa [← hkept] at hslot
      · simp [hread] at he

/-- The records of the source are read whether or not a file is open. -/
theorem readRecordAt_matches (h : v.Matches s keys w) (hk : key ∈ keys)
    (hf : (v.slot key).failure = none) :
    Coupled (Matches s keys) (readRecordAt s v key name window time)
      (readRecordAt s w key name window time) := by
  have hm := h.slot key hk
  obtain ⟨hv, hw⟩ := h.placed key hk
  have hrv := hm.left.ready hf
  have hrw := hm.right.ready (hm.failure.trans hf)
  have mv : Moves s.Gives [key] [key] [] v (readRecordAt s v key name window time).2 :=
    readRecordAt_moves (List.mem_singleton_self key) (List.mem_singleton_self key)
  have mw : Moves s.Gives [key] [key] [] w (readRecordAt s w key name window time).2 :=
    readRecordAt_moves (List.mem_singleton_self key) (List.mem_singleton_self key)
  have frame := h.frame key mv.size_eq mw.size_eq
    (fun k e => mv.slot_eq (by simpa using e) (by simpa using e))
    (fun k e => mw.slot_eq (by simpa using e) (by simpa using e))
  cases hrec : s.recordAt name window time with
  | error f =>
    obtain ⟨a, ha, hca⟩ := slot_readRecordAt_of_error hv hrv hrec
    obtain ⟨b, hb, hcb⟩ := slot_readRecordAt_of_error hw hrw hrec
    refine ⟨by rw [readRecordAt_of_error hv hrv hrec, readRecordAt_of_error hw hrw hrec],
      frame ?_⟩
    rw [ha, hb]
    exact ⟨hm.position, hm.timestamp, hm.failure, ⟨rfl, hca⟩, ⟨rfl, hcb⟩⟩
  | ok g =>
    obtain ⟨v₁, a, hva, ha, hca⟩ := readRecordAt_of_ok hv hrv hrec
    obtain ⟨w₁, b, hwb, hb, hcb⟩ := readRecordAt_of_ok hw hrw hrec
    rw [hva, hwb] at frame ⊢
    refine ⟨rfl, frame ?_⟩
    rw [ha, hb]
    exact ⟨hm.position, rfl, hm.failure, ⟨rfl, fun _ e => by cases e; exact hca⟩,
      ⟨rfl, fun _ e => by cases e; exact hcb⟩⟩

theorem readNext_matches (h : v.Matches s keys w) (hk : key ∈ keys)
    (hf : (v.slot key).failure = none) :
    Coupled (Matches s keys) (readNext s v key name window) (readNext s w key name window) := by
  have hm := h.slot key hk
  unfold readNext
  rw [hm.position]
  split
  · exact ⟨rfl, h⟩
  · exact ⟨rfl, h⟩
  · next next _ =>
    have hn : ∀ {slot : Slot}, slot.Current s →
        ({ slot with position := next.current } : Slot).Current s := fun hc =>
      ⟨hc.fileTime, hc.file⟩
    refine readRecordAt_matches (h.modify hk ?_) hk ?_
    · exact ⟨rfl, hm.timestamp, hm.failure, hn hm.left, hn hm.right⟩
    · rw [slot_modify_self (h.placed key hk).1, hf]

/-! ## Pulling and closing -/

theorem simulation_matches : Simulation s id keys (Matches s keys) where
  timestamp h hk := (h.slot _ hk).timestamp
  failure h hk := (h.slot _ hk).failure
  pulled h _ := h.congr rfl rfl
  applied h _ := h.congr rfl rfl
  stamp h hk _ :=
    have hm := h.slot _ hk
    h.modify hk ⟨hm.position, rfl, hm.failure, ⟨hm.left.fileTime, hm.left.file⟩,
      ⟨hm.right.fileTime, hm.right.file⟩⟩
  halt h hk _ :=
    have hm := h.slot _ hk
    h.modify hk ⟨hm.position, hm.timestamp, rfl, ⟨hm.left.fileTime, hm.left.file⟩,
      ⟨hm.right.fileTime, hm.right.file⟩⟩
  release h hk := h.release hk
  readNext h hk hf _ _ := readNext_matches h hk hf

theorem pull_matches (h : v.Matches s p.keys w) :
    Coupled (Matches s p.keys) (p.pull s v) (p.pull s w) := by
  have hp := simulation_matches.pull h (List.Subset.refl p.keys)
  rwa [rename_id] at hp

/-- A tree is closed in one of the worlds. -/
theorem close_matches (h : v.Matches s p.keys w) : (close v p).Matches s p.keys w :=
  related_close (R := fun v' _ => v'.Matches s p.keys w) (ρ := id) (w := w)
    (fun h hk => h.release_left hk) h (List.Subset.refl _)

private theorem close_of_handle_none_aux :
    (∀ p : Producer, (∀ k ∈ p.leafKeys, (w.slot k).handle = none) → close w p = w) ∧
    ∀ ps : List Producer, (∀ k ∈ leafKeysAll ps, (w.slot k).handle = none) →
      closeAll w ps = w := by
  refine forest_induction ?raw ?combined ?nil ?cons
  case raw =>
    intro key name window h
    rw [close, release_of_handle_none (h key (by simp))]
  case combined =>
    intro key name rule first others ih h
    have hi := ih (by rwa [leafKeys_combined] at h)
    rwa [closeAll, ← close] at hi
  case nil =>
    intro _
    rw [closeAll]
  case cons =>
    intro p ps ihp ihps h
    rw [leafKeysAll_cons, List.forall_mem_append] at h
    rw [closeAll, ihp h.1, ihps h.2]

/-- Where no file is open there is nothing to close. -/
theorem close_of_handle_none (h : ∀ k ∈ p.leafKeys, (w.slot k).handle = none) : close w p = w :=
  close_of_handle_none_aux.1 p h

/-- Closing a second time does nothing. -/
theorem close_close : close (close w p) p = close w p :=
  close_of_handle_none fun _ hk => handle_close hk

/-! ## Sequences of calls -/

/-- Whether a call is a pull. -/
def Call.isPull : Call → Bool
  | .pull _ => true
  | .close => false

/-- The answers to the pulls among some calls, each with the time of the last grid and whether the
producer is halted afterwards. -/
def answersTo (p : Producer) (w : World) : List Call → List (Pull Grid × Option Instant × Bool)
  | [] => []
  | .pull s :: cs =>
    let (r, w) := p.pull s w
    (r, p.timestamp w, p.halted w) :: p.answersTo w cs
  | .close :: cs => p.answersTo (close w p) cs

/-- In worlds that match, calls are answered as their pulls alone are, and the worlds still match
at the end. -/
theorem answersTo_matches (h : v.Matches s p.keys w) {cs : List Call}
    (hs : ∀ t, .pull t ∈ cs → t = s) :
    p.answersTo v cs = p.answersTo w (cs.filter Call.isPull) ∧
      (p.calls v cs).Matches s p.keys (p.calls w (cs.filter Call.isPull)) := by
  induction cs generalizing v w with
  | nil => exact ⟨rfl, h⟩
  | cons c cs ih =>
    have hs' : ∀ t, .pull t ∈ cs → t = s := fun t ht => hs t (List.mem_cons_of_mem _ ht)
    cases c with
    | close => exact ih (close_matches h) hs'
    | pull t =>
      obtain rfl : t = s := hs t List.mem_cons_self
      obtain ⟨he, hm⟩ := pull_matches h
      have hroot := hm.slot _ p.key_mem_keys
      obtain ⟨ha, hc⟩ := ih hm hs'
      rw [List.filter_cons_of_pos rfl]
      refine ⟨?_, hc⟩
      simp only [answersTo, he, ha, timestamp, halted, hroot.timestamp, hroot.failure]

/-- Closing is transparent. The answers to pulls are those that are given when the closings among
the calls are left out, and every producer of the tree ends up at the same record, with the same
time and the same failure, if any. Closing any number of times in a row is closing once. -/
theorem closing_transparent (hp : p.Placed w)
    (hw : ∀ k ∈ p.keys, (w.slot k).handle = none ∧ (w.slot k).fileTime = none) {cs : List Call}
    (hs : ∀ t, .pull t ∈ cs → t = s) :
    p.answersTo w cs = p.answersTo w (cs.filter Call.isPull) ∧
    (∀ k ∈ p.keys,
      ((p.calls w cs).slot k).position = ((p.calls w (cs.filter Call.isPull)).slot k).position ∧
      ((p.calls w cs).slot k).timestamp = ((p.calls w (cs.filter Call.isPull)).slot k).timestamp ∧
      ((p.calls w cs).slot k).failure = ((p.calls w (cs.filter Call.isPull)).slot k).failure) ∧
    ∀ (v : World) (n : Nat), p.calls v (List.replicate (n + 1) .close) = close v p := by
  have hcurrent : ∀ k ∈ p.keys, (w.slot k).Current s := fun k hk =>
    ⟨by rw [(hw k hk).1, (hw k hk).2, Option.map_none], fun h e => by simp [(hw k hk).1] at e⟩
  have hself : w.Matches s p.keys w :=
    ⟨fun k hk => ⟨hp k hk, hp k hk⟩, fun k hk => ⟨rfl, rfl, rfl, hcurrent k hk, hcurrent k hk⟩⟩
  obtain ⟨ha, hm⟩ := answersTo_matches hself hs
  refine ⟨ha, fun k hk => ?_, fun v n => ?_⟩
  · have hslot := hm.slot k hk
    exact ⟨hslot.position.symm, hslot.timestamp.symm, hslot.failure.symm⟩
  · induction n with
    | zero => rfl
    | succ n ih =>
      rw [List.replicate_succ', calls_concat, ih]
      exact close_close

/-- Files of which only the first one is readable. -/
def firstReadable : Source := sampleSource fun t _ => t == sampleWindow.start

/-- Closed ahead of the first pull, between two files and behind the failure of the second one. -/
theorem closing_transparent_sample : sample.Placed sampleWorld ∧
    sample.answersTo sampleWorld [.close, .pull firstReadable, .close, .close,
        .pull firstReadable, .close, .pull firstReadable] =
      sample.answersTo sampleWorld
        [.pull firstReadable, .pull firstReadable, .pull firstReadable] :=
  ⟨sample_placed, (closing_transparent (s := firstReadable) sample_placed
    (fun k _ => (slot_sampleWorld k).1) (by simp)).1⟩

end Producer

end GridStream
