import GridStream.Proofs.Producer.Sought
import GridStream.Proofs.Producer.Stepping

/-!
# Which record is asked for

A raw producer holds no file but the one that was opened last: every move keeps this
(`World.HoldsLast.moves`), so it does not matter whether the file was opened by the present pull or
by one long before. Hence a pull asks for one record, at the index of its time in the file that
covers the time (`Producer.consults_pull`), or, if there is no such file, for no record at all
(`Producer.misses_pull`). The reading of a single record does the same with a file that it opens
for itself (`World.readAt_of_ok`, `World.readAt_of_error`).
-/

namespace GridStream

/-- The file that an event is the opening of, with the time at which it starts. -/
def Event.openedAt? : Event → Option (Nat × Instant)
  | .opened id start => some (id, start)
  | _ => none

/-- The record that an event asks for: the file, the variable and the index. -/
def Event.read? : Event → Option (Nat × String × Int)
  | .read id name index => some (id, name, index)
  | _ => none

theorem Event.openedAt?_eq_none {e : Event} (h : e.opened? = none) : e.openedAt? = none := by
  cases e <;> first | rfl | cases h

namespace World

/-- The file that was opened last, with the time at which it starts. -/
def lastOpened? (w : World) : Option (Nat × Instant) := w.trace.findSome? Event.openedAt?

/-- The records that were asked for, the last one first. -/
def reads (w : World) : List (Nat × String × Int) := w.trace.filterMap Event.read?

/-- Whether one record of a variable is asked for between two worlds, from the file that starts at
a time and is the last one opened. -/
def Consults (w w' : World) (name : String) (start : Instant) (index : Int) : Prop :=
  ∃ id, w'.lastOpened? = some (id, start) ∧ w'.reads = (id, name, index) :: w.reads

/-- What happens between two worlds if a file cannot be opened: it is asked for, and no record is.
-/
structure Misses (w w' : World) (start : Instant) : Prop where
  sought : w'.sought = start :: w.sought
  reads : w'.reads = w.reads

/-- Whether the producer of a key holds no file but the one that was opened last. -/
def HoldsLast (w : World) (key : Nat) : Prop :=
  ∀ h, (w.slot key).handle = some h → w.lastOpened? = some (h.id, h.start)

variable {s : Source} {w w' : World} {key k : Nat} {name : String} {start : Instant}
  {file : DataFile} {given : Instant → DataFile → Prop} {keys halts : List Nat}

/-! ## Events -/

theorem lastOpened?_record {e : Event} (h : e.openedAt? = none) :
    (w.record e).lastOpened? = w.lastOpened? := by
  simp [lastOpened?, h]

@[simp] theorem lastOpened?_release : (w.release key).lastOpened? = w.lastOpened? := by
  unfold release
  split
  · rfl
  · exact lastOpened?_record rfl

theorem reads_record {e : Event} (h : e.read? = none) : (w.record e).reads = w.reads := by
  simp [reads, h]

@[simp] theorem reads_release : (w.release key).reads = w.reads := by
  unfold release
  split
  · rfl
  · exact reads_record rfl

@[simp] theorem reads_announce {m : String} : (w.announce m).reads = w.reads :=
  reads_record (e := .announced m) rfl

@[simp] theorem reads_take : (w.take key start file).reads = w.reads :=
  reads_record (e := .opened w.opened start) rfl

/-! ## The file that was opened last -/

theorem holdsLast_of_none (h : (w.slot key).handle = none) : w.HoldsLast key := fun held e => by
  rw [h] at e
  cases e

namespace HoldsLast

/-- What matters is the file in the slot and the file that was opened last. -/
theorem congr (H : w.HoldsLast key) (hs : (w'.slot key).handle = (w.slot key).handle)
    (ho : w'.lastOpened? = w.lastOpened?) : w'.HoldsLast key := fun h e => by
  rw [ho]
  exact H h (hs ▸ e)

theorem move (H : w.HoldsLast key) (m : Move given keys [key] halts w w') : w'.HoldsLast key := by
  cases m with
  | note e progress ho => exact H.congr rfl (lastOpened?_record (Event.openedAt?_eq_none ho))
  | change f _ hf => exact H.congr (slot_modify_congr Slot.handle (hf _).1) rfl
  | halt f => exact H.congr (slot_modify_congr Slot.handle rfl) rfl
  | release hk =>
    obtain rfl := List.mem_singleton.1 hk
    exact holdsLast_of_none handle_release_self
  | @take _ start file hk hfree =>
    obtain rfl := List.mem_singleton.1 hk
    intro h e
    have hs : w.HasSlot _ := hasSlot_modify.1 (hasSlot_of_handle e)
    rw [slot_take_self hs] at e
    cases e
    rfl

theorem moves (H : w.HoldsLast key) (m : Moves given keys [key] halts w w') :
    w'.HoldsLast key := by
  induction m with
  | refl => exact H
  | tail _ m ih => exact ih.move m

end HoldsLast

/-! ## Reading a single record -/

section
variable {window : Window} {time : Instant} {record fileLength : Span} {f : Failure}

theorem readAt_of_error (hw : Window.make? time.midnight time record fileLength = .ok window)
    (ha : window.fileStart? time = some start) (ho : s.openAt start = .error f) :
    (w.readAt s name time record fileLength).1 = .error f ∧
      w.Misses (w.readAt s name time record fileLength).2 start := by
  rw [show w.readAt s name time record fileLength = (.error f, w.record (.requested start)) by
    simp only [readAt, hw, ha, openFile, ho]]
  exact ⟨rfl, rfl, rfl⟩

theorem readAt_of_ok (hw : Window.make? time.midnight time record fileLength = .ok window)
    (ha : window.fileStart? time = some start) (ho : s.openAt start = .ok file) :
    (w.readAt s name time record fileLength).1 = file.read name (window.recordIndex time) ∧
      w.Consults (w.readAt s name time record fileLength).2 name start
        (window.recordIndex time) := by
  simp only [readAt, hw, ha, openFile, ho]
  exact ⟨rfl, w.opened, rfl, rfl⟩

end

end World

namespace Producer

variable {s : Source} {w w' : World} {key n : Nat} {name path : String} {window : Window}
  {start time : Instant} {file : DataFile} {f f' : Failure}

/-! ## Reading a record -/

@[simp] theorem reads_stepInto : (stepInto s w key name start).2.reads = w.reads := by
  rw [snd_stepInto]
  cases s.message? name start with
  | none => exact World.reads_release
  | some m =>
    have hasked : (((w.release key).announce m).record (.requested start)).reads = w.reads := by
      rw [World.reads_record rfl, World.reads_announce, World.reads_release]
    cases s.openAt start with
    | error f => exact hasked
    | ok file => exact World.reads_take.trans hasked

@[simp] theorem reads_enter : (enter s w key name start).2.reads = w.reads := by
  unfold enter
  split
  · rfl
  · exact reads_stepInto

theorem consults_readRecordAt (hs : w.HasSlot key) (hr : (w.slot key).Ready s)
    (H : w.HoldsLast key) (ha : window.fileStart? time = some start)
    (hf : s.fileFor name start = .ok file) :
    w.Consults (readRecordAt s w key name window time).2 name start
      (window.recordIndex time) := by
  obtain ⟨w₁, id, he, hslot⟩ := enter_of_ok hs hr hf
  have hheld : (w₁.slot key).handle = some ⟨id, start, file⟩ := by rw [hslot]
  have hlast : w₁.HoldsLast key := by
    have m : Moves s.Gives [key] [key] [] w (enter s w key name start).2 :=
      enter_moves name start (List.mem_singleton_self key)
    rw [he] at m
    exact H.moves m
  have hreads : w₁.reads = w.reads := by
    have h : (enter s w key name start).2.reads = w.reads := reads_enter
    rwa [he] at h
  refine ⟨id, ?_⟩
  rw [← hreads]
  simp only [readRecordAt, ha, he, World.readHeld, hheld, World.readRecord]
  cases file.read name (window.recordIndex time) with
  | error f => exact ⟨hlast _ hheld, rfl⟩
  | ok g => exact ⟨hlast _ hheld, rfl⟩

theorem misses_readRecordAt (hr : (w.slot key).Ready s) (ha : window.fileStart? time = some start)
    (hd : s.describe start = .ok path) (ho : s.openAt start = .error f) :
    w.Misses (readRecordAt s w key name window time).2 start := by
  have hf : s.fileFor name start = .error (f.within (opening path name start)) := by
    rw [Source.fileFor, hd, ho]
    rfl
  have he : (stepInto s w key name start).1 = _ := stepInto_of_error hf
  have hread : (readRecordAt s w key name window time).2 = (stepInto s w key name start).2 := by
    rw [readRecordAt, ha]
    dsimp only
    rw [enter_eq_stepInto hr hf]
    rcases hstep : stepInto s w key name start with ⟨_ | _, w₁⟩
    · rfl
    · rw [hstep] at he
      cases he
  rw [hread]
  refine ⟨?_, reads_stepInto⟩
  rw [snd_stepInto, Source.message?, hd, ho]
  change start :: ((w.release key).announce _).sought = _
  rw [World.sought_announce, World.sought_release]

/-! ## Pulling -/

/-- What a raw producer has done when it begins to read: it has moved on to the time of the record
behind and touched no file. -/
structure Begun (s : Source) (key : Nat) (next : Instant) (w w₁ : World) : Prop where
  hasSlot : w₁.HasSlot key
  ready : (w₁.slot key).Ready s
  position : (w₁.slot key).position = next
  handle : (w₁.slot key).handle = (w.slot key).handle
  lastOpened : w₁.lastOpened? = w.lastOpened?
  reads : w₁.reads = w.reads
  sought : w₁.sought = w.sought

theorem pull_of_shift {next : Instant} (hs : w.HasSlot key) (hr : (w.slot key).Ready s)
    (ht : (Leaf.cursor ⟨key, name, window⟩ w).recordTime? 0 = some time)
    (hnext : time.shift? window.record.micros = some next) :
    ∃ w₁, Begun s key next w w₁ ∧ (raw key name window).pull s w =
      settle (raw key name window) (readRecordAt s w₁ key name window time) := by
  have ha : (Cursor.mk window ((w.record (.pulled key)).slot key).position).advance = _ :=
    Cursor.advance_of_shift (c := Leaf.cursor ⟨key, name, window⟩ w) ht hnext
  let w₁ := (w.record (.pulled key)).modify key fun slot => { slot with position := next }
  have hslot : w₁.slot key = { w.slot key with position := next } :=
    World.slot_modify_self (by exact hs)
  refine ⟨w₁, ⟨World.hasSlot_modify.2 hs, ?_, by rw [hslot], by rw [hslot], rfl, rfl, rfl⟩,
    by rw [pull_raw hr.failure, readNext, ha]⟩
  rw [hslot]
  exact ⟨hr.failure, hr.fileTime, hr.file⟩

theorem pull_of_recordTime (h : Steady s (raw key name window).nodes w)
    (ht : (Leaf.cursor ⟨key, name, window⟩ w).recordTime? 0 = some time) :
    ∃ w₁ next, Begun s key next w w₁ ∧ (raw key name window).pull s w =
      settle (raw key name window) (readRecordAt s w₁ key name window time) := by
  obtain ⟨hs, hr, hc⟩ := steady_raw h
  obtain ⟨next, hnext⟩ := Option.isSome_iff_exists.1 (hc 0 time ht)
  obtain ⟨w₁, hb, hp⟩ := pull_of_shift hs hr ht hnext
  exact ⟨w₁, next, hb, hp⟩

/-- The closing of the file at the end of a pull asks for nothing and opens nothing. -/
theorem reads_settle_raw {r : Pull Grid × World} :
    (settle (raw key name window) r).2.reads = r.2.reads ∧
      (settle (raw key name window) r).2.lastOpened? = r.2.lastOpened? := by
  obtain ⟨_ | _ | f, w⟩ := r
  · exact ⟨rfl, rfl⟩
  · rw [settle, close]
    exact ⟨World.reads_release, World.lastOpened?_release⟩
  · rw [settle, close]
    exact ⟨World.reads_release, World.lastOpened?_release⟩

/-- A pull asks for its record in the file that covers the time, whether it has to be opened or is
still open. -/
theorem consults_pull (h : Steady s (raw key name window).nodes w) (H : w.HoldsLast key)
    (ht : (Leaf.cursor ⟨key, name, window⟩ w).recordTime? 0 = some time)
    (ha : window.fileStart? time = some start) (hf : s.fileFor name start = .ok file) :
    w.Consults ((raw key name window).pull s w).2 name start (window.recordIndex time) := by
  obtain ⟨w₁, next, hb, hp⟩ := pull_of_recordTime h ht
  obtain ⟨id, hlast, hreads⟩ :=
    consults_readRecordAt hb.hasSlot hb.ready (H.congr hb.handle hb.lastOpened) ha hf
  rw [hp]
  exact ⟨id, reads_settle_raw.2.trans hlast, by rw [reads_settle_raw.1, hreads, hb.reads]⟩

/-- A pull whose file cannot be opened asks for no record. -/
theorem misses_pull (h : Steady s (raw key name window).nodes w)
    (ht : (Leaf.cursor ⟨key, name, window⟩ w).recordTime? 0 = some time)
    (ha : window.fileStart? time = some start) (hd : s.describe start = .ok path)
    (ho : s.openAt start = .error f) :
    w.Misses ((raw key name window).pull s w).2 start := by
  obtain ⟨w₁, next, hb, hp⟩ := pull_of_recordTime h ht
  have hm : w₁.Misses (readRecordAt s w₁ key name window time).2 start :=
    misses_readRecordAt hb.ready ha hd ho
  rw [hp]
  exact ⟨by rw [sought_settle, hm.sought, hb.sought],
    by rw [reads_settle_raw.1, hm.reads, hb.reads]⟩

theorem holdsLast_pull (H : w.HoldsLast key) :
    ((raw key name window).pull s w).2.HoldsLast key := by
  have m := (raw key name window).pull_moves (s := s) (w := w)
  rw [leafKeys_raw] at m
  exact H.moves m

theorem holdsLast_pulls (H : w.HoldsLast key) :
    ((raw key name window).pulls s n w).2.HoldsLast key := by
  induction n with
  | zero => exact H
  | succ n ih =>
    rw [snd_pulls_succ]
    exact holdsLast_pull ih

end Producer

end GridStream
