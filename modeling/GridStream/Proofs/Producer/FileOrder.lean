import GridStream.Proofs.Producer.Stepping
import GridStream.Proofs.Window.Addresses
import Mathlib.Data.List.Basic
import Mathlib.Tactic.Linarith

/-!
# The order of files

The times that a raw producer takes from its cursor grow, and so do the starts of the files that
cover them. Hence the files that it has visited, in the order of the visits, are the files of its
times without the repetitions (`Producer.stands_pulls`), and none is visited twice. Read from its
start to its end, a window opens as many files as it takes to hold its records
(`Producer.Readable.length_fileStarts`).
-/

namespace GridStream

/-- Puts an item behind a list, unless there is none or it is in the list already. -/
def addNew (as : List Instant) : Option Instant → List Instant
  | none => as
  | some a => if a ∈ as then as else as ++ [a]

theorem addNew_eraseDups {as : List Instant} {a? : Option Instant} :
    addNew as.eraseDups a? = (as ++ a?.toList).eraseDups := by
  cases a? with
  | none => simp [addNew]
  | some a =>
    rw [addNew, Option.toList_some, List.eraseDups_append]
    by_cases h : a ∈ as
    · rw [if_pos (List.mem_eraseDups.2 h)]
      simp [List.removeAll, h]
    · rw [if_neg (mt List.mem_eraseDups.1 h)]
      simp [List.removeAll, h, List.eraseDups_cons]

namespace Window

variable {w : Window} {t u a b : Instant}

/-- Files start in the order of the times that they cover. -/
theorem fileStart?_mono (h : t ≤ u) (ha : w.fileStart? t = some a) (hb : w.fileStart? u = some b) :
    a ≤ b := by
  have hn : w.fileNumber t ≤ w.fileNumber u := by
    refine Int.ediv_le_ediv w.file_pos ?_
    change t.micros ≤ u.micros at h
    unfold Instant.since
    omega
  have hlt := lt_iff_of_fileStart? hb ha
  rw [Instant.lt_iff] at hlt
  change a.micros ≤ b.micros
  omega

end Window

namespace Producer

/-- The time that a pull takes from the cursor of a producer, if it takes one. The pulls are
numbered from 0 on. -/
def taken (s : Source) (p : Producer) (w : World) (k : Nat) : Option Instant :=
  let before := ((p.pulls s k w).2.slot p.key).position
  if ((p.pulls s (k + 1) w).2.slot p.key).position = before then none else some before

/-- The starts of the files that cover the times which a number of pulls take, one for each. -/
def fileStarts (s : Source) (p : Producer) (window : Window) (w : World) (n : Nat) : List Instant :=
  (List.range n).filterMap fun k => (taken s p w k).bind window.fileStart?

variable {s : Source} {w w₁ w₂ : World} {key : Nat} {name : String} {window : Window} {n : Nat}
  {a : Instant} {as : List Instant}

/-- Where a producer stands after visits of some files: the last one is the one that it takes to be
open. -/
structure Stands (s : Source) (key : Nat) (name : String) (window : Window) (as : List Instant)
    (w w₁ : World) : Prop where
  visited : Visited s key name as w w₁
  hasSlot : w₁.HasSlot key
  increasing : as.Pairwise (· < ·)
  opens : (w₁.slot key).failure = none → ∀ a ∈ as, s.opens a
  fileTime : ¬ Stopped key window w₁ → (w₁.slot key).fileTime = as.getLast?
  behind : ¬ Stopped key window w₁ → ∀ b ∈ as.getLast?,
    ∃ t ≤ (w₁.slot key).position, window.fileStart? t = some b

namespace Stands

/-- A file that is not the last one visited starts behind all that were. -/
theorem lt_of_getLast? (h : Stands s key name window as w w₁) (hr : ¬ Stopped key window w₁)
    (ha : window.fileStart? (w₁.slot key).position = some a) (hne : as.getLast? ≠ some a) :
    ∀ b ∈ as, b < a := by
  obtain rfl | ⟨as, c, rfl⟩ := List.eq_nil_or_concat as
  · nofun
  · rw [List.concat_eq_append] at h hne ⊢
    rw [List.getLast?_concat] at hne
    obtain ⟨t, ht, hc⟩ := h.behind hr c (by simp)
    have hle : c ≤ a := Window.fileStart?_mono ht hc ha
    have hca : c < a := Nat.lt_of_le_of_ne hle fun e => hne (congrArg some (Instant.ext e))
    intro b hb
    rcases List.mem_append.1 hb with hb | hb
    · have hbc : b < c := (List.pairwise_append.1 h.increasing).2.2 b hb c (by simp)
      exact Nat.lt_trans hbc hca
    · rwa [List.mem_singleton.1 hb]

/-- The file of the time that is taken from the cursor is the last one visited or a new one behind
all that were. -/
theorem visit (h : Stands s key name window as w w₁) (ht : Takes key window w₁ w₂)
    (ha : window.fileStart? (w₁.slot key).position = some a)
    (hv : Visited s key name (if (w₁.slot key).fileTime = some a then [] else [a]) w₁ w₂)
    (hs : w₂.HasSlot key)
    (hopens : (w₂.slot key).failure = none → ∀ b ∈ as, s.opens b)
    (hfile : (w₂.slot key).failure = none → (w₂.slot key).fileTime = some a ∧
      ((w₁.slot key).fileTime ≠ some a → s.opens a)) :
    Stands s key name window (addNew as (some a)) w w₂ := by
  have htime : ¬ Stopped key window w₂ → (w₂.slot key).fileTime = some a := fun hgo =>
    (hfile (by_contra fun hf => hgo (.inl hf))).1
  have hbehind : ∀ b ∈ some a, ∃ t ≤ (w₂.slot key).position, window.fileStart? t = some b :=
    fun b hb => ⟨_, Nat.le_of_lt ht.lt, Option.mem_some_iff.1 hb ▸ ha⟩
  rw [h.fileTime ht.not_stopped] at hv hfile
  have hv := h.visited.trans hv
  by_cases hlast : as.getLast? = some a
  · rw [if_pos hlast, List.append_nil] at hv
    rw [addNew, if_pos (List.mem_of_getLast? hlast)]
    exact ⟨hv, hs, h.increasing, hopens, hlast ▸ htime, fun _ => hlast ▸ hbehind⟩
  · rw [if_neg hlast] at hv
    have hlt := h.lt_of_getLast? ht.not_stopped ha hlast
    have hnew : a ∉ as := fun hmem => Nat.lt_irrefl _ (hlt a hmem)
    rw [addNew, if_neg hnew]
    refine ⟨hv, hs, ?_, fun hf => ?_, by rwa [List.getLast?_concat],
      fun _ => by rwa [List.getLast?_concat]⟩
    · exact List.pairwise_append.2 ⟨h.increasing, List.pairwise_singleton .., by simpa using hlt⟩
    · exact List.forall_mem_append.2 ⟨hopens hf, by simpa using (hfile hf).2 hlast⟩

/-- A pull that takes no time from the cursor changes nothing. A pull that takes one visits the file
that covers it, unless that one was visited before. -/
theorem pull (h : Stands s key name window as w w₁)
    (hw : ((raw key name window).pull s w₁).2 = w₂) :
    (w₂.slot key).position = (w₁.slot key).position ∧ Stands s key name window as w w₂ ∨
    (w₂.slot key).position ≠ (w₁.slot key).position ∧
      Stands s key name window (addNew as (window.fileStart? (w₁.slot key).position)) w w₂ := by
  have hs : w₂.HasSlot key := hw ▸ (pull_moves (raw key name window)).hasSlot h.hasSlot
  have hopens : (w₂.slot key).failure = none → ∀ b ∈ as, s.opens b := fun hf =>
    h.opens (failure_eq_none_of_pull hw hf)
  have hmoved : Takes key window w₁ w₂ → (w₂.slot key).position ≠ (w₁.slot key).position :=
    fun ht e => Nat.lt_irrefl _ (e ▸ ht.lt)
  cases stepped_pull h.hasSlot hw with
  | stop hv hp hstop =>
    exact .inl ⟨hp, h.visited.trans_nil hv, hs, h.increasing, hopens, (absurd hstop ·),
      (absurd hstop ·)⟩
  | outside ht hnone hv hstop =>
    rw [hnone]
    exact .inr ⟨hmoved ht, h.visited.trans_nil hv, hs, h.increasing, hopens, (absurd hstop ·),
      (absurd hstop ·)⟩
  | file a ht ha hv hfile =>
    rw [ha]
    exact .inr ⟨hmoved ht, h.visit ht ha hv hs hopens hfile⟩

end Stands

theorem fileStarts_succ {p : Producer} :
    fileStarts s p window w (n + 1) =
      fileStarts s p window w n ++ ((taken s p w n).bind window.fileStart?).toList := by
  rw [fileStarts, List.range_succ, List.filterMap_append]
  rfl

theorem stands_pulls (h : (raw key name window).Fresh w) (n : Nat) :
    Stands s key name window (fileStarts s (raw key name window) window w n).eraseDups w
      ((raw key name window).pulls s n w).2 := by
  induction n with
  | zero =>
    have hkey : key ∈ (raw key name window).keys := by simp
    exact ⟨.refl w, h.placed _ hkey, .nil, nofun, fun _ => h.fileTime _ hkey, nofun⟩
  | succ n ih =>
    rw [fileStarts_succ, ← addNew_eraseDups]
    obtain ⟨hp, hstands⟩ | ⟨hp, hstands⟩ := ih.pull (snd_pulls_succ (s := s) (w := w)).symm
    · rw [taken, key_raw, if_pos hp]
      exact hstands
    · rw [taken, key_raw, if_neg hp]
      exact hstands

/-- A pull of an exhausted producer takes no time and leaves no file open. -/
theorem taken_of_exhausted (h : (raw key name window).Fresh w)
    (hf : (raw key name window).Unfailed ((raw key name window).pulls s n w).2)
    (he : (Leaf.cursor ⟨key, name, window⟩ ((raw key name window).pulls s n w).2).exhausted) :
    taken s (raw key name window) w n = none ∧
      (((raw key name window).pulls s (n + 1) w).2.slot key).handle = none := by
  have hs := (stands_pulls (s := s) h n).hasSlot
  have hfinished := finished_of_exhausted (s := s) hf he
  constructor
  · have hstopped : Stopped key window ((raw key name window).pulls s n w).2 := .inr he
    have hstep : Stepped s key name window ((raw key name window).pulls s n w).2 _ :=
      stepped_pull hs rfl
    cases hstep with
    | stop _ hpos => rw [taken, snd_pulls_succ, key_raw, if_pos hpos]
    | outside ht | file _ ht => exact absurd hstopped ht.not_stopped
  · rw [snd_pulls_succ]
    exact handle_pull (hf _ (by simp)) (by simp [hfinished]) (by simp)

/-- A producer of an empty window does nothing to files. -/
theorem fileEvents_of_exhausted (h : (raw key name window).Fresh w)
    (he : (Cursor.mk window (w.slot key).position).exhausted) (n : Nat) :
    ((raw key name window).pulls s n w).2.fileEvents = w.fileEvents := by
  have hstay : ∀ k, (raw key name window).Unfailed ((raw key name window).pulls s k w).2 ∧
      (Leaf.cursor ⟨key, name, window⟩ ((raw key name window).pulls s k w).2).exhausted :=
    fun k => by
      rw [snd_pulls]
      exact ⟨unfailed_calls h.nodup h.failure he _,
        kept_calls (l := ⟨key, name, window⟩) Cursor.kept_exhausted h.nodup (by simp) he _⟩
  have hstarts : fileStarts s (raw key name window) window w n = [] := by
    simp [fileStarts, taken_of_exhausted h (hstay _).1 (hstay _).2]
  have hclosed : (((raw key name window).pulls s n w).2.slot key).handle = none := by
    cases n with
    | zero => exact h.handle _ (by simp)
    | succ n => exact (taken_of_exhausted h (hstay n).1 (hstay n).2).2
  have hevents := (stands_pulls (s := s) h n).visited.events
  rw [hstarts, World.release_of_handle_none hclosed,
    World.release_of_handle_none (h.handle _ (by simp))] at hevents
  rw [hevents]
  exact List.append_nil _

/-! ## A whole window -/

/-- A raw producer that was never pulled stands at the start of a window of which it can read all
records. -/
structure Readable (s : Source) (key : Nat) (name : String) (window : Window) (w : World) : Prop
    where
  fresh : (raw key name window).Fresh w
  position : (w.slot key).position = window.start
  inCalendar : (Cursor.atStart window).InCalendar
  read : ∀ k t, (Cursor.atStart window).recordTime? k = some t →
    ∃ g, s.recordAt name window t = .ok g

namespace Readable

variable {m k : Nat}

theorem cursor_eq (h : Readable s key name window w) :
    Leaf.cursor ⟨key, name, window⟩ w = .atStart window := by
  rw [Leaf.cursor, h.position]
  rfl

/-- Up to the end of the window, every pull gives a grid. -/
theorem pulls_eq_items (h : Readable s key name window w)
    (hk : (k : Int) ≤ (Cursor.atStart window).remaining) :
    ∃ gs : List Grid, gs.length = k ∧
      ((raw key name window).pulls s gs.length w).1 = gs.map .item := by
  have hsteady : Steady s (raw key name window).nodes w := h.fresh.steady fun l hl => by
    obtain rfl : l = ⟨key, name, window⟩ := by simpa using hl
    rw [h.cursor_eq]
    exact h.inCalendar
  obtain ⟨gs, hgs, heval⟩ := exists_grids (p := raw key name window) (s := s) (w := w) (n := k)
    fun j hj => by
      have hsome : ((Cursor.atStart window).recordTime? j).isSome :=
        Cursor.lt_remaining.1 (Int.lt_of_lt_of_le (Int.ofNat_lt.2 hj) hk)
      obtain ⟨t, ht⟩ := Option.isSome_iff_exists.1 hsome
      obtain ⟨g, hg⟩ := h.read j t ht
      exact ⟨g, eval_raw_eq_ok.2 ⟨t, by rw [h.cursor_eq, ht], hg⟩⟩
  obtain ⟨w', hp, -⟩ := pulls_of_ok hsteady gs heval
  exact ⟨gs, hgs, by rw [hp]⟩

theorem position_pulls (h : Readable s key name window w)
    (hk : (k : Int) ≤ (Cursor.atStart window).remaining) :
    (raw key name window).Unfailed ((raw key name window).pulls s k w).2 ∧
    ((((raw key name window).pulls s k w).2.slot key).position.micros : Int) =
      window.start.micros + k * window.record.micros := by
  obtain ⟨gs, rfl, hgs⟩ := h.pulls_eq_items hk
  obtain ⟨hf, hpos⟩ := position_of_pulls h.fresh.nodup h.fresh.placed h.fresh.failure hgs
  have hpos := hpos ⟨key, name, window⟩ (by simp)
  rw [h.cursor_eq] at hpos
  exact ⟨hf, hpos⟩

/-- Each of the first pulls takes the time of its record. -/
theorem taken_eq (h : Readable s key name window w)
    (hk : (k : Int) < (Cursor.atStart window).remaining) :
    taken s (raw key name window) w k = (Cursor.atStart window).recordTime? k := by
  obtain ⟨t, ht⟩ := Option.isSome_iff_exists.1 (Cursor.lt_remaining.1 hk)
  have hbefore := (h.position_pulls (Int.le_of_lt hk)).2
  have hafter := (h.position_pulls (k := k + 1) hk).2
  have hrecord := window.record_pos
  rw [Int.natCast_add, Int.add_mul, Int.natCast_one, Int.one_mul] at hafter
  rw [taken, key_raw, ht, if_neg (fun e => by rw [e] at hafter; omega)]
  obtain ⟨htime, -⟩ := Window.recordTime?_atStart.1 ht
  exact congrArg some (Instant.ext (by omega))

/-- Behind the end of the window the producer is exhausted and has not failed. -/
theorem exhausted_pulls (h : Readable s key name window w)
    (hk : (Cursor.atStart window).remaining ≤ k) :
    (raw key name window).Unfailed ((raw key name window).pulls s k w).2 ∧
      (Leaf.cursor ⟨key, name, window⟩ ((raw key name window).pulls s k w).2).exhausted := by
  induction k with
  | zero =>
    have hzero : (Cursor.atStart window).recordTime? 0 = none := Cursor.recordTime?_eq_none.2 hk
    refine ⟨h.fresh.failure, ?_⟩
    rw [pulls, h.cursor_eq]
    exact Cursor.advance_eq_exhausted (Cursor.advance_of_none hzero)
  | succ k ih =>
    by_cases hlast : (Cursor.atStart window).remaining ≤ k
    · obtain ⟨hf, he⟩ := ih hlast
      have hfinished := finished_of_exhausted (s := s) hf he
      rw [snd_pulls_succ]
      refine ⟨unfailed_pull hf (by simp [hfinished]), ?_⟩
      exact kept_pull Cursor.kept_exhausted h.fresh.nodup (by simp) he
    · obtain ⟨hf, hpos⟩ := h.position_pulls (k := k + 1) (by omega)
      have hnone : (Cursor.atStart window).recordTime? (k + 1) = none :=
        Cursor.recordTime?_eq_none.2 hk
      rw [← Option.not_isSome_iff_eq_none, Cursor.isSome_recordTime?] at hnone
      refine ⟨hf, Cursor.exhausted_iff.2 ?_⟩
      change window.stop.micros ≤ _
      dsimp only [Cursor.atStart] at hnone
      dsimp only [Leaf.cursor]
      omega

/-- The files that the pulls up to a record need. -/
theorem mem_fileStarts_iff (h : Readable s key name window w)
    (hk : (k : Int) ≤ (Cursor.atStart window).remaining) :
    a ∈ fileStarts s (raw key name window) window w k ↔ ∃ j < k, ∃ t,
      (Cursor.atStart window).recordTime? j = some t ∧ window.fileStart? t = some a := by
  simp only [fileStarts, List.mem_filterMap, List.mem_range, Option.bind_eq_some_iff]
  constructor
  · rintro ⟨j, hj, t, ht, ha⟩
    exact ⟨j, hj, t, by rwa [h.taken_eq (by omega)] at ht, ha⟩
  · rintro ⟨j, hj, t, ht, ha⟩
    exact ⟨j, hj, t, by rwa [h.taken_eq (by omega)], ha⟩

theorem fileStarts_end (h : Readable s key name window w)
    (hm : (Cursor.atStart window).remaining ≤ m) (hk : m ≤ k) :
    fileStarts s (raw key name window) window w k =
      fileStarts s (raw key name window) window w m := by
  induction k, hk using Nat.le_induction with
  | base => rfl
  | succ k hk ih =>
    obtain ⟨hf, he⟩ := h.exhausted_pulls (Int.le_trans hm (Int.ofNat_le.2 hk))
    rw [fileStarts_succ, (taken_of_exhausted h.fresh hf he).1, ih]
    simp

/-- The record that a pull takes needs a new file if it is the first of its file. -/
theorem mem_fileStarts_next (h : Readable s key name window w) {q : Nat}
    (hq : window.recordsPerFile = q) {t : Instant}
    (ht : (Cursor.atStart window).recordTime? k = some t) (ha : window.fileStart? t = some a) :
    a ∈ fileStarts s (raw key name window) window w k ↔ ¬ q ∣ k := by
  have hk := Cursor.lt_remaining.2 (Option.isSome_of_eq_some ht)
  have hpos : 0 < q := Int.ofNat_lt.1 (hq ▸ window.recordsPerFile_pos)
  have hsame : ∀ {j u b}, (Cursor.atStart window).recordTime? j = some u →
      window.fileStart? u = some b → (b = a ↔ j / q = k / q) := by
    intro j u b hu hb
    have hnumber : ∀ {i v}, (Cursor.atStart window).recordTime? i = some v →
        window.fileNumber v = (i / q : Nat) := fun {i v} hv => by
      rw [Window.fileNumber, Window.since_recordTime hv, Window.file_eq,
        Int.mul_ediv_mul_of_pos_left _ _ window.record_pos, hq, Int.natCast_ediv]
    rw [Window.eq_iff_of_fileStart? hb ha, hnumber hu, hnumber ht, Int.ofNat_inj]
  rw [h.mem_fileStarts_iff (Int.le_of_lt hk)]
  constructor
  · rintro ⟨j, hj, u, hu, hb⟩ ⟨d, rfl⟩
    have hdiv := (hsame hu hb).1 rfl
    rw [Nat.mul_div_cancel_left _ hpos] at hdiv
    have hlt : j / q < d := Nat.div_lt_of_lt_mul hj
    omega
  · intro hdvd
    -- The record before lies in the same file.
    obtain ⟨j, rfl⟩ : ∃ j, k = j + 1 :=
      Nat.exists_eq_succ_of_ne_zero fun e => hdvd (e ▸ Nat.dvd_zero q)
    obtain ⟨u, hu⟩ := Option.isSome_iff_exists.1 (Cursor.lt_remaining.1
      (Int.lt_trans (Int.ofNat_lt.2 (Nat.lt_succ_self j)) hk))
    obtain ⟨b, hb⟩ := Window.exists_fileStart hu
    have hdiv : j / q = (j + 1) / q := (Nat.succ_div_of_not_dvd hdvd).symm
    exact ⟨j, Nat.lt_succ_self j, u, hu, (hsame hu hb).2 hdiv ▸ hb⟩

/-- There are as many files as it takes to hold the records. -/
theorem length_fileStarts (h : Readable s key name window w) {q : Nat}
    (hq : window.recordsPerFile = q) (hk : (k : Int) ≤ (Cursor.atStart window).remaining) :
    let files := (fileStarts s (raw key name window) window w k).eraseDups.length
    k ≤ files * q ∧ files * q < k + q := by
  have hpos : 0 < q := Int.ofNat_lt.1 (hq ▸ window.recordsPerFile_pos)
  dsimp only
  induction k with
  | zero => simpa [fileStarts] using hpos
  | succ k ih =>
    obtain ⟨hle, hlt⟩ := ih (by omega)
    have hk : (k : Int) < (Cursor.atStart window).remaining := by omega
    obtain ⟨t, ht⟩ := Option.isSome_iff_exists.1 (Cursor.lt_remaining.1 hk)
    obtain ⟨a, ha⟩ := Window.exists_fileStart ht
    have hnew := h.mem_fileStarts_next hq ht ha
    rw [fileStarts_succ, ← addNew_eraseDups, h.taken_eq hk, ht, Option.bind_some, ha, addNew]
    obtain ⟨files, hfiles⟩ :
        ∃ n, (fileStarts s (raw key name window) window w k).eraseDups.length = n := ⟨_, rfl⟩
    rw [hfiles] at hle hlt
    by_cases hdvd : q ∣ k
    · rw [if_neg (fun hmem => hnew.1 (List.mem_eraseDups.1 hmem) hdvd), List.length_append, hfiles,
        List.length_singleton, Nat.add_mul, Nat.one_mul]
      obtain ⟨d, hd⟩ := hdvd
      have hlt : files < d + 1 := Nat.lt_of_mul_lt_mul_right (a := q) (by linarith)
      have hfull : files * q ≤ d * q := Nat.mul_le_mul_right q (Nat.le_of_lt_succ hlt)
      rw [Nat.mul_comm d, ← hd] at hfull
      omega
    · rw [if_pos (List.mem_eraseDups.2 (hnew.2 hdvd)), hfiles]
      have hne : k ≠ files * q := fun e => hdvd ⟨files, by rw [e, Nat.mul_comm]⟩
      omega

end Readable

/-! ## Every file once and in order -/

/-- A quotient rounded up. -/
theorem eq_neg_ediv_neg {c m q : Nat} (h : m ≤ c * q ∧ c * q < m + q) :
    (c : Int) = -(-(m : Int) / q) := by
  obtain ⟨hle, hlt⟩ := h
  have hq : (0 : Int) < q := by omega
  have hdiv : -(m : Int) / q = -c := by
    refine ((Int.ediv_emod_unique hq).2 ⟨?_, ?_, ?_⟩ : _ ∧ -(m : Int) % q = (c * q : Nat) - m).1
    · rw [Int.mul_neg, Int.natCast_mul, Int.mul_comm]
      omega
    · omega
    · omega
  rw [hdiv, Int.neg_neg]

theorem opens_of_recordAt {t : Instant} {g : Grid} (h : s.recordAt name window t = .ok g)
    (ha : window.fileStart? t = some a) : s.opens a = true := by
  obtain ⟨start, file, hstart, hf, -⟩ := recordAt_eq_ok.1 h
  obtain rfl : start = a := Option.some.inj (hstart.symm.trans ha)
  obtain ⟨⟨path, hd⟩, ho⟩ := fileFor_eq_ok.1 hf
  rw [Source.opens, hd, ho]

theorem openings_pulls (h : (raw key name window).Fresh w) :
    ((raw key name window).pulls s n w).2.openings = w.openings ++
      (fileStarts s (raw key name window) window w n).eraseDups.filter s.opens :=
  (stands_pulls h n).visited.openings

/-- A pull opens a file if it is the first one that takes a time which the file covers. -/
theorem openings_succ_iff (h : (raw key name window).Fresh w) :
    ((raw key name window).pulls s (n + 1) w).2.openings =
        ((raw key name window).pulls s n w).2.openings ++ [a] ↔
      s.opens a ∧ (taken s (raw key name window) w n).bind window.fileStart? = some a ∧
        ∀ k < n, (taken s (raw key name window) w k).bind window.fileStart? ≠ some a := by
  have hfirst : ∀ b, (∀ k < n, (taken s (raw key name window) w k).bind window.fileStart? ≠
      some b) ↔ b ∉ (fileStarts s (raw key name window) window w n).eraseDups := fun b => by
    rw [List.mem_eraseDups]
    simp [fileStarts]
  rw [openings_pulls h, openings_pulls h, fileStarts_succ, ← addNew_eraseDups, List.append_assoc,
    List.append_cancel_left_eq, hfirst]
  generalize (fileStarts s (raw key name window) window w n).eraseDups = as
  cases (taken s (raw key name window) w n).bind window.fileStart? with
  | none => simp [addNew]
  | some b =>
    by_cases hb : b ∈ as
    · have hself : as.filter s.opens ≠ as.filter s.opens ++ [a] := by simp
      rw [addNew, if_pos hb]
      refine iff_of_false hself ?_
      rintro ⟨-, hba, hnew⟩
      exact hnew (Option.some.inj hba ▸ hb)
    · rw [addNew, if_neg hb, List.filter_append, List.append_cancel_left_eq, Option.some_inj]
      constructor
      · intro h
        have hmem : a ∈ [b].filter s.opens := h ▸ List.mem_singleton_self a
        rw [List.mem_filter, List.mem_singleton] at hmem
        obtain ⟨rfl, ho⟩ := hmem
        exact ⟨ho, rfl, hb⟩
      · rintro ⟨ho, rfl, -⟩
        simp [ho]

/-- Stepping from file to file opens each file once and in order. The files that were visited are
those which cover the times taken so far, and they were all opened as long as nothing has failed. A
pull opens a file if it is the first one that takes such a time. An empty window opens none, and a
readable one that was read beyond its end has opened and closed as many as its records fill, the
last one perhaps in part. -/
theorem file_order (h : (raw key name window).Fresh w) (s : Source) :
    (∀ n, (fileStarts s (raw key name window) window w n).eraseDups.Pairwise (· < ·) ∧
      ((raw key name window).pulls s n w).2.openings = w.openings ++
        (fileStarts s (raw key name window) window w n).eraseDups.filter s.opens ∧
      ((((raw key name window).pulls s n w).2.slot key).failure = none →
        ∀ a ∈ (fileStarts s (raw key name window) window w n).eraseDups, s.opens a) ∧
      Visited s key name (fileStarts s (raw key name window) window w n).eraseDups w
        ((raw key name window).pulls s n w).2) ∧
    (∀ n a, ((raw key name window).pulls s (n + 1) w).2.openings =
        ((raw key name window).pulls s n w).2.openings ++ [a] ↔
      s.opens a ∧ (taken s (raw key name window) w n).bind window.fileStart? = some a ∧
        ∀ k < n, (taken s (raw key name window) w k).bind window.fileStart? ≠ some a) ∧
    ((Cursor.mk window (w.slot key).position).exhausted → ∀ n,
      ((raw key name window).pulls s n w).2.fileEvents = w.fileEvents) ∧
    (Readable s key name window w → ∀ n : Nat, (Cursor.atStart window).remaining < n →
      ∃ as : List Instant, (as.length : Int) =
          -(-(Cursor.atStart window).remaining / window.recordsPerFile) ∧
        (∀ a ∈ as, s.opens a) ∧
        (((raw key name window).pulls s n w).2.slot key).handle = none ∧
        ((raw key name window).pulls s n w).2.openings = w.openings ++ as ∧
        ((raw key name window).pulls s n w).2.fileEvents =
          w.fileEvents ++ s.visits name w.opened as) := by
  refine ⟨fun n => ⟨(stands_pulls h n).increasing, openings_pulls h, (stands_pulls h n).opens,
      (stands_pulls h n).visited⟩,
    fun n a => openings_succ_iff h, fileEvents_of_exhausted h, fun hr n hn => ?_⟩
  obtain ⟨m, hm⟩ := Int.eq_ofNat_of_zero_le (Cursor.atStart window).remaining_nonneg
  obtain ⟨q, hq⟩ := window.exists_recordsPerFile
  have hmn : m < n := by omega
  have hstarts := hr.fileStarts_end (Int.le_of_eq hm) (Nat.le_of_lt hmn)
  have hopens : ∀ a ∈ (fileStarts s (raw key name window) window w n).eraseDups, s.opens a := by
    intro a ha
    rw [List.mem_eraseDups, hstarts, hr.mem_fileStarts_iff (Int.le_of_eq hm.symm)] at ha
    obtain ⟨k, -, t, ht, ha⟩ := ha
    obtain ⟨g, hg⟩ := hr.read k t ht
    exact opens_of_recordAt hg ha
  have hclosed : (((raw key name window).pulls s n w).2.slot key).handle = none := by
    obtain ⟨j, rfl⟩ := Nat.exists_eq_succ_of_ne_zero (Nat.ne_of_gt (Nat.zero_lt_of_lt hmn))
    obtain ⟨hf, he⟩ := hr.exhausted_pulls (k := j) (by omega)
    exact (taken_of_exhausted h hf he).2
  refine ⟨_, ?_, hopens, hclosed, ?_, ?_⟩
  · rw [hstarts, hm, hq]
    exact eq_neg_ediv_neg (hr.length_fileStarts hq (Int.le_of_eq hm.symm))
  · rw [openings_pulls h, List.filter_eq_self.2 hopens]
  · have hevents := (stands_pulls (s := s) h n).visited.events
    rwa [World.release_of_handle_none hclosed,
      World.release_of_handle_none (h.handle _ (by simp))] at hevents

/-- Four hours with a record each, in files of three hours. -/
def fourHours : Window where
  __ := hoursWindow 4
  file := .hours 3
  record_le_file := by decide
  whole := by decide

theorem fresh_sampleWorld (window : Window) : (raw 0 "A" window).Fresh sampleWorld :=
  ⟨by simp, fun k hk => by
    obtain rfl : k = 0 := by simpa using hk
    simp [World.HasSlot, sampleWorld],
    fun k _ => (slot_sampleWorld k).2, fun k _ => (slot_sampleWorld k).1.1,
    fun k _ => (slot_sampleWorld k).1.2⟩

theorem readable_fourHours :
    Readable (sampleSource fun _ _ => true) 0 "A" fourHours sampleWorld where
  fresh := fresh_sampleWorld _
  position := rfl
  inCalendar := Cursor.inCalendar_of_stop rfl
  read k t ht := by
    obtain ⟨a, ha⟩ := Window.exists_fileStart ht
    exact ⟨default, by rw [Source.recordAt, ha]; rfl⟩

/-- Five pulls open the two files of four hours, and no pull of an empty window opens any. -/
theorem file_order_four_hours :
    (raw 0 "A" fourHours).Fresh sampleWorld ∧
    (∃ a b, a < b ∧ ((raw 0 "A" fourHours).pulls (sampleSource fun _ _ => true) 5
      sampleWorld).2.openings = [a, b]) ∧
    (raw 0 "A" (hoursWindow 0)).Fresh sampleWorld ∧
    ∀ n, ((raw 0 "A" (hoursWindow 0)).pulls (sampleSource fun _ _ => true) n
      sampleWorld).2.fileEvents = [] := by
  have hfull := fresh_sampleWorld fourHours
  have hempty := fresh_sampleWorld (hoursWindow 0)
  obtain ⟨hpulls, -, -, hdrain⟩ := file_order hfull (sampleSource fun _ _ => true)
  obtain ⟨as, hlength, -, -, hopenings, -⟩ := hdrain readable_fourHours 5 (by decide)
  obtain ⟨hincreasing, hsame, -⟩ := hpulls 5
  have htwo : as.length = 2 := by
    have hceil : -(-(Cursor.atStart fourHours).remaining / fourHours.recordsPerFile) = 2 := by
      decide
    omega
  obtain ⟨a, b, rfl⟩ := List.length_eq_two.1 htwo
  have hab : [a, b].Pairwise (· < ·) := by
    have heq := List.append_cancel_left (hopenings.symm.trans hsame)
    rw [heq]
    exact hincreasing.filter _
  exact ⟨hfull, ⟨a, b, by simpa using hab, hopenings⟩, hempty,
    (file_order hempty _).2.2.1 (by decide)⟩

end Producer

end GridStream
