import GridStream.Proofs.Producer.Exhaustion

/-!
# Stepping from file to file

What a raw producer does to files and progress while it is pulled is a sequence of visits: it says
which file comes next, asks for it, and, if it can be opened, closes it before the next visit
(`Source.visits`). One pull makes at most one visit, to the file that covers the time which it takes
from the cursor (`Producer.stepped_pull`).
-/

namespace GridStream

/-- Whether an event is about files and not about records or grids. -/
def Event.isFile : Event → Bool
  | .announced _ | .requested _ | .opened .. | .closed .. => true
  | .pulled _ | .applied _ | .read .. => false

/-- The start of the file that an event is the opening of. -/
def Event.opening? : Event → Option Instant
  | .opened _ start => some start
  | _ => none

namespace World

/-- What happened to files, the first first. -/
def fileEvents (w : World) : List Event := (w.trace.filter Event.isFile).reverse

/-- The starts of the files that were opened, the first first. -/
def openings (w : World) : List Instant := w.fileEvents.filterMap Event.opening?

variable {w w' : World} {key : Nat} {e : Event}

theorem fileEvents_record (h : e.isFile) : (w.record e).fileEvents = w.fileEvents ++ [e] := by
  simp [fileEvents, h]

theorem fileEvents_record_of_not (h : e.isFile = false) :
    (w.record e).fileEvents = w.fileEvents := by
  simp [fileEvents, h]

@[simp] theorem fileEvents_modify {f : Slot → Slot} :
    (w.modify key f).fileEvents = w.fileEvents := rfl

@[simp] theorem fileEvents_announce {m : String} :
    (w.announce m).fileEvents = w.fileEvents ++ [.announced m] :=
  fileEvents_record (e := .announced m) rfl

/-- What happened to files once a producer has closed the one that it holds. -/
theorem fileEvents_release : (w.release key).fileEvents = w.fileEvents ++
    ((w.slot key).handle.map fun h => .closed h.id h.start).toList := by
  unfold release
  split
  · next h => simp [h]
  · next h =>
    rw [h]
    exact fileEvents_record rfl

@[simp] theorem openings_release : (w.release key).openings = w.openings := by
  rw [openings, fileEvents_release, List.filterMap_append]
  cases (w.slot key).handle <;> simp [openings, Event.opening?]

theorem fileEvents_release_take {a : Instant} {file : DataFile} (hs : w.HasSlot key) :
    ((w.take key a file).release key).fileEvents =
      w.fileEvents ++ [.opened w.opened a, .closed w.opened a] := by
  have htake : (w.take key a file).fileEvents = w.fileEvents ++ [.opened w.opened a] :=
    fileEvents_record (e := .opened w.opened a) rfl
  rw [fileEvents_release, htake, slot_take_self hs, List.append_assoc]
  rfl

end World

/-! ## Visits -/

namespace Source

/-- Whether the file that starts at a time can be named and opened. -/
def opens (s : Source) (a : Instant) : Bool :=
  match s.describe a, s.openAt a with
  | .ok _, .ok _ => true
  | _, _ => false

/-- What is said before a file is asked for, if it can be named. -/
def message? (s : Source) (name : String) (a : Instant) : Option String :=
  match s.describe a with
  | .error _ => none
  | .ok path => some s!"Reading {name} from {path}"

/-- What happens to the file that starts at a time from the step into it to the step out of it. The
number is the one that the file has if it is opened. -/
def visit (s : Source) (name : String) (id : Nat) (a : Instant) : List Event :=
  match s.message? name a with
  | none => []
  | some m =>
    .announced m :: .requested a :: if s.opens a then [.opened id a, .closed id a] else []

/-- Visits of several files, one after the other. -/
def visits (s : Source) (name : String) (id : Nat) : List Instant → List Event
  | [] => []
  | a :: as => s.visit name id a ++ s.visits name (id + (s.opens a).toNat) as

variable {s : Source} {name : String} {id : Nat} {a : Instant} {as bs : List Instant}

theorem opens_eq (h : (s.message? name a).isSome) : s.opens a = (s.openAt a).isOk := by
  unfold message? at h
  unfold opens
  cases hd : s.describe a with
  | error f => simp [hd] at h
  | ok path => cases s.openAt a <;> rfl

theorem opens_eq_false (h : s.message? name a = none) : s.opens a = false := by
  unfold message? at h
  unfold opens
  cases hd : s.describe a with
  | error f => rfl
  | ok path => simp [hd] at h

theorem visits_append : s.visits name id (as ++ bs) =
    s.visits name id as ++ s.visits name (id + as.countP s.opens) bs := by
  induction as generalizing id with
  | nil => rfl
  | cons a as ih =>
    have hid : id + (s.opens a).toNat + as.countP s.opens = id + (a :: as).countP s.opens := by
      cases h : s.opens a <;> simp [h]
      omega
    rw [List.cons_append, visits, visits, ih, hid, List.append_assoc]

/-- Of the files visited, those are opened that can be. -/
theorem openings_visits :
    (s.visits name id as).filterMap Event.opening? = as.filter s.opens := by
  induction as generalizing id with
  | nil => rfl
  | cons a as ih =>
    rw [visits, List.filterMap_append, ih, visit]
    cases hm : s.message? name a with
    | none => simp [opens_eq_false hm]
    | some m => cases ho : s.opens a <;> simp [List.filterMap_cons, Event.opening?, ho]

end Source

/-- What a producer does to files between two worlds, up to the closing of the last one: it visits
those that start at the given times. -/
structure Visited (s : Source) (key : Nat) (name : String) (as : List Instant) (w w' : World) :
    Prop where
  events : (w'.release key).fileEvents = (w.release key).fileEvents ++ s.visits name w.opened as
  opened : w'.opened = w.opened + as.countP s.opens
  progress : w'.progress = (as.filterMap (s.message? name)).foldl Progress.notify w.progress

namespace Visited

variable {s : Source} {key : Nat} {name : String} {as bs : List Instant} {w w' w'' : World}

theorem openings (h : Visited s key name as w w') :
    w'.openings = w.openings ++ as.filter s.opens := by
  have he := congrArg (List.filterMap Event.opening?) h.events
  rw [List.filterMap_append, Source.openings_visits] at he
  change (w'.release key).openings = (w.release key).openings ++ _ at he
  rwa [World.openings_release, World.openings_release] at he

theorem trans (h : Visited s key name as w w') (h' : Visited s key name bs w' w'') :
    Visited s key name (as ++ bs) w w'' where
  events := by rw [h'.events, h.events, h.opened, Source.visits_append, List.append_assoc]
  opened := by rw [h'.opened, h.opened, List.countP_append, Nat.add_assoc]
  progress := by rw [h'.progress, h.progress, List.filterMap_append, List.foldl_append]

theorem trans_nil (h : Visited s key name as w w') (h' : Visited s key name [] w' w'') :
    Visited s key name as w w'' := by
  simpa using h.trans h'

theorem nil_trans (h : Visited s key name [] w w') (h' : Visited s key name as w' w'') :
    Visited s key name as w w'' := h.trans h'

/-- A change that concerns no file. -/
theorem of_same (ht : w'.fileEvents = w.fileEvents) (ho : w'.opened = w.opened)
    (hp : w'.progress = w.progress) (hh : (w'.slot key).handle = (w.slot key).handle) :
    Visited s key name [] w w' where
  events := by rw [World.fileEvents_release, World.fileEvents_release, ht, hh]; simp [Source.visits]
  opened := by rw [ho]; rfl
  progress := hp

theorem refl (w : World) : Visited s key name [] w w := of_same rfl rfl rfl rfl

theorem record {e : Event} (h : e.isFile = false) : Visited s key name [] w (w.record e) :=
  of_same (World.fileEvents_record_of_not h) rfl rfl rfl

theorem modify {f : Slot → Slot} (h : ∀ slot, (f slot).handle = slot.handle) :
    Visited s key name [] w (w.modify key f) :=
  of_same rfl rfl rfl (World.slot_modify_congr Slot.handle (h _))

theorem release : Visited s key name [] w (w.release key) where
  events := by
    rw [World.release_of_handle_none World.handle_release_self]
    simp [Source.visits]
  opened := by simp
  progress := by
    unfold World.release
    split <;> rfl

end Visited

/-! ## The visit of a pull -/

namespace Producer

variable {s : Source} {w w' : World} {key : Nat} {name : String} {window : Window}
  {time a : Instant} {p : Producer}

theorem snd_stepInto : (stepInto s w key name a).2 =
    match s.message? name a with
    | none => w.release key
    | some m =>
      match s.openAt a with
      | .error _ => ((w.release key).announce m).record (.requested a)
      | .ok file => (((w.release key).announce m).record (.requested a)).take key a file := by
  unfold stepInto World.openFile Source.message?
  cases s.describe a with
  | error f => rfl
  | ok path => cases s.openAt a <;> rfl

theorem visited_stepInto (hs : w.HasSlot key) :
    Visited s key name [a] w (stepInto s w key name a).2 := by
  suffices h : Visited s key name [a] (w.release key) (stepInto s w key name a).2 from
    Visited.release.nil_trans h
  have hfree : ((w.release key).slot key).handle = none := World.handle_release_self
  have hs : (w.release key).HasSlot key := (World.hasSlot_congr World.size_release).2 hs
  rw [snd_stepInto]
  generalize w.release key = w at hfree hs
  have hrest : w.release key = w := World.release_of_handle_none hfree
  cases hm : s.message? name a with
  | none =>
    have hopens : s.opens a = false := Source.opens_eq_false hm
    constructor <;> simp [Source.visits, Source.visit, hm, hopens]
  | some m =>
    have hasked : ((w.announce m).record (.requested a)).fileEvents =
        w.fileEvents ++ [.announced m, .requested a] := by
      rw [World.fileEvents_record rfl, World.fileEvents_announce, List.append_assoc]
      rfl
    have hprogress : ([a].filterMap (s.message? name)).foldl Progress.notify w.progress =
        w.progress.notify m := by
      rw [List.filterMap_cons_some hm]
      rfl
    cases ho : s.openAt a with
    | error f =>
      have hopens : s.opens a = false := by
        rw [Source.opens_eq (Option.isSome_of_eq_some hm), ho]
        rfl
      have hfree : (((w.announce m).record (.requested a)).slot key).handle = none := hfree
      refine ⟨?_, by simp [hopens, World.announce], hprogress.symm⟩
      dsimp only
      rw [World.release_of_handle_none hfree, hasked, hrest]
      simp [Source.visits, Source.visit, hm, hopens]
    | ok file =>
      have hopens : s.opens a = true := by
        rw [Source.opens_eq (Option.isSome_of_eq_some hm), ho]
        rfl
      have hs : ((w.announce m).record (.requested a)).HasSlot key := hs
      refine ⟨?_, by simp [hopens, World.take, World.announce], hprogress.symm⟩
      dsimp only
      rw [World.fileEvents_release_take hs, hasked, hrest]
      simp [Source.visits, Source.visit, hm, hopens, World.announce]

theorem of_stepInto (hs : w.HasSlot key) (h : stepInto s w key name a = (.ok (), w')) :
    (w'.slot key).fileTime = some a ∧ s.opens a := by
  have hs : (w.release key).HasSlot key := (World.hasSlot_congr World.size_release).2 hs
  unfold stepInto World.openFile at h
  cases hd : s.describe a with
  | error f => simp [hd] at h
  | ok path =>
    cases ho : s.openAt a with
    | error f => simp [hd, ho] at h
    | ok file =>
      simp only [hd, ho, Prod.mk.injEq, true_and] at h
      rw [← h, World.slot_modify_self (by exact hs), Source.opens, hd, ho]
      exact ⟨rfl, rfl⟩

theorem visited_enter (hs : w.HasSlot key) : Visited s key name
    (if (w.slot key).fileTime = some a then [] else [a]) w (enter s w key name a).2 := by
  unfold enter
  split
  · exact .refl w
  · exact visited_stepInto hs

theorem of_enter (hs : w.HasSlot key) (h : enter s w key name a = (.ok (), w')) :
    (w'.slot key).fileTime = some a ∧ ((w.slot key).fileTime ≠ some a → s.opens a) := by
  unfold enter at h
  split at h
  · next heq =>
    cases h
    exact ⟨heq, absurd heq⟩
  · obtain ⟨htime, ho⟩ := of_stepInto hs h
    exact ⟨htime, fun _ => ho⟩

theorem visited_readHeld {index : Int} :
    Visited s key name [] w (w.readHeld key name index).2 := by
  unfold World.readHeld
  split
  · exact .refl w
  · exact .record rfl

/-- Reading a record visits the file that covers its time, unless the producer takes that file to be
open. -/
theorem visited_readRecordAt (hs : w.HasSlot key) (ha : window.fileStart? time = some a) :
    Visited s key name (if (w.slot key).fileTime = some a then [] else [a]) w
      (readRecordAt s w key name window time).2 ∧
    ∀ g, (readRecordAt s w key name window time).1 = .item g →
      ((readRecordAt s w key name window time).2.slot key).fileTime = some a ∧
        ((w.slot key).fileTime ≠ some a → s.opens a) := by
  have he : Visited s key name _ w (enter s w key name a).2 := visited_enter hs
  generalize (if (w.slot key).fileTime = some a then [] else [a]) = as at he ⊢
  unfold readRecordAt
  rw [ha]
  dsimp only
  split
  · next h =>
    rw [h] at he
    exact ⟨he, nofun⟩
  · next w₁ h =>
    rw [h] at he
    have hr : Visited s key name [] w₁ (w₁.readHeld key name (window.recordIndex time)).2 :=
      visited_readHeld
    have hslot : (w₁.readHeld key name (window.recordIndex time)).2.slot key = w₁.slot key :=
      slot_readHeld
    split
    · next h' =>
      rw [h'] at hr
      exact ⟨he.trans_nil hr, nofun⟩
    · next w₂ h' =>
      rw [h'] at hr hslot
      refine ⟨(he.trans_nil hr).trans_nil (.modify fun _ => rfl), fun _ _ => ?_⟩
      rw [World.slot_modify_congr Slot.fileTime rfl, hslot]
      exact of_enter hs h

theorem visited_settle {r : Pull Grid × World} :
    Visited s key name [] r.2 (settle (raw key name window) r).2 := by
  obtain ⟨_ | _ | f, w⟩ := r
  · exact .refl w
  · rw [settle, close]
    exact .release
  · rw [settle, close]
    have hm : Visited s key name [] w
        (w.modify key fun slot => { slot with failure := some f }) := .modify fun _ => rfl
    exact hm.trans_nil .release

/-- How a pull ends, given what reading the next record comes to. -/
theorem pull_of_readNext {r : Pull Grid × World} (hs : w.HasSlot key)
    (hf : (w.slot key).failure = none)
    (hr : readNext s (w.record (.pulled key)) key name window = r)
    (hw : ((raw key name window).pull s w).2 = w') :
    Visited s key name [] r.2 w' ∧ (w'.slot key).position = (r.2.slot key).position ∧
      (∀ f, r.1 = .failed f → (w'.slot key).failure ≠ none) ∧ (∀ g, r.1 = .item g → w' = r.2) := by
  have hpull : (raw key name window).pull s w = _ := pull_raw hf
  rw [hr] at hpull
  have hsettle : (settle (raw key name window) r).2 = w' := by rw [← hpull, hw]
  refine ⟨hsettle ▸ visited_settle, hsettle ▸ position_settle, fun f hfailed => ?_, ?_⟩
  · rw [← hw]
    exact failure_of_failed (p := raw key name window) hs
      (Prod.fst_eq_iff.1 (by rw [hpull, settle_fst, hfailed]))
  · obtain ⟨r, w₁⟩ := r
    rintro g rfl
    exact hsettle.symm

/-- Whether a producer takes no more times from its cursor: it has failed, or no record is left. -/
def Stopped (key : Nat) (window : Window) (w : World) : Prop :=
  (w.slot key).failure ≠ none ∨ (Cursor.mk window (w.slot key).position).exhausted

/-- A pull that takes a time from the cursor: the one at which the cursor stands. -/
structure Takes (key : Nat) (window : Window) (w w' : World) : Prop where
  not_stopped : ¬ Stopped key window w
  position : ((w'.slot key).position.micros : Int) =
    (w.slot key).position.micros + window.record.micros

theorem Takes.lt (h : Takes key window w w') :
    (w.slot key).position < (w'.slot key).position := by
  have hrecord := window.record_pos
  have hposition := h.position
  rw [Instant.lt_iff]
  omega

/-- What a pull does to files and to the position. -/
inductive Stepped (s : Source) (key : Nat) (name : String) (window : Window) (w w' : World) : Prop
  /-- The producer has failed or fails before it takes a time, or there is none left. -/
  | stop : Visited s key name [] w w' → (w'.slot key).position = (w.slot key).position →
    Stopped key window w' → Stepped s key name window w w'
  /-- The file that covers the time would start outside the calendar. -/
  | outside : Takes key window w w' → window.fileStart? (w.slot key).position = none →
    Visited s key name [] w w' → Stopped key window w' → Stepped s key name window w w'
  /-- The file that covers the time is visited, unless the producer takes it to be open. -/
  | file (a : Instant) : Takes key window w w' →
    window.fileStart? (w.slot key).position = some a →
    Visited s key name (if (w.slot key).fileTime = some a then [] else [a]) w w' →
    ((w'.slot key).failure = none → (w'.slot key).fileTime = some a ∧
      ((w.slot key).fileTime ≠ some a → s.opens a)) →
    Stepped s key name window w w'

/-- A pull that takes a time visits the file that covers it. -/
private theorem stepped_of_record {t : Instant} {next : Cursor} (hs : w.HasSlot key)
    (hf : (w.slot key).failure = none)
    (ha : (Cursor.mk window (w.slot key).position).advance = .record t next)
    (hw : ((raw key name window).pull s w).2 = w') : Stepped s key name window w w' := by
  obtain ⟨hne, -, hnext⟩ := Cursor.advance_eq_record ha
  obtain rfl := Cursor.time_of_advance ha
  let w₁ := (w.record (.pulled key)).modify key fun slot => { slot with position := next.current }
  have hr : readNext s (w.record (.pulled key)) key name window =
      readRecordAt s w₁ key name window (w.slot key).position := by
    rw [readNext, World.slot_record, ha]
  have hw₁ : Visited s key name [] w w₁ := (Visited.record rfl).trans_nil (.modify fun _ => rfl)
  have hslot : w₁.slot key = { w.slot key with position := next.current } :=
    World.slot_modify_self hs
  obtain ⟨hv, hposition, hfailed, hitem⟩ := pull_of_readNext hs hf hr hw
  rw [position_readRecordAt, hslot] at hposition
  have htakes : Takes key window w w' :=
    ⟨not_or.2 ⟨not_not_intro hf, hne⟩, by rw [hposition]; exact hnext⟩
  cases hfile : window.fileStart? (w.slot key).position with
  | none =>
    have hread : readRecordAt s w₁ key name window (w.slot key).position =
        (.failed .outOfCalendar, w₁) := by
      rw [readRecordAt, hfile]
    rw [hread] at hv hfailed
    exact .outside htakes hfile (hw₁.trans_nil hv) (.inl (hfailed _ rfl))
  | some a =>
    have hs₁ : w₁.HasSlot key := World.hasSlot_modify.2 hs
    obtain ⟨hread, htime⟩ : Visited s key name _ w₁ _ ∧ _ := visited_readRecordAt hs₁ hfile
    rw [hslot] at hread htime
    refine .file a htakes hfile (hw₁.nil_trans (hread.trans_nil hv)) fun hok => ?_
    cases hanswer : (readRecordAt s w₁ key name window (w.slot key).position).1 with
    | item g =>
      rw [hitem g hanswer]
      exact htime g hanswer
    | finished => exact absurd hanswer readRecordAt_ne_finished
    | failed f => exact absurd hok (hfailed f hanswer)

theorem stepped_pull (hs : w.HasSlot key) (hw : ((raw key name window).pull s w).2 = w') :
    Stepped s key name window w w' := by
  have hp : Visited s key name [] w (w.record (.pulled key)) := .record rfl
  cases hf : (w.slot key).failure with
  | some f =>
    rw [pull_of_failed (p := raw key name window) hf] at hw
    subst hw
    exact .stop hp rfl (.inl (by simp [hf]))
  | none =>
    cases ha : (Cursor.mk window (w.slot key).position).advance with
    | exhausted =>
      have hr : readNext s (w.record (.pulled key)) key name window =
          (.finished, w.record (.pulled key)) := by
        rw [readNext, World.slot_record, ha]
      obtain ⟨hv, hposition, -⟩ := pull_of_readNext hs hf hr hw
      refine .stop (hp.trans_nil hv) hposition (.inr ?_)
      rw [hposition]
      exact Cursor.advance_eq_exhausted ha
    | outOfCalendar =>
      have hr : readNext s (w.record (.pulled key)) key name window =
          (.failed .outOfCalendar, w.record (.pulled key)) := by
        rw [readNext, World.slot_record, ha]
      obtain ⟨hv, hposition, hfailed, -⟩ := pull_of_readNext hs hf hr hw
      exact .stop (hp.trans_nil hv) hposition (.inl (hfailed _ rfl))
    | record t next => exact stepped_of_record hs hf ha hw

/-- A producer that has not failed had not failed before. -/
theorem failure_eq_none_of_pull (hw : ((raw key name window).pull s w).2 = w')
    (h : (w'.slot key).failure = none) : (w.slot key).failure = none := by
  cases hf : (w.slot key).failure with
  | none => rfl
  | some f =>
    rw [pull_of_failed (p := raw key name window) hf] at hw
    subst hw
    simp [hf] at h

end Producer

end GridStream
