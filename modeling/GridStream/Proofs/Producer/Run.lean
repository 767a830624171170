import GridStream.Proofs.Producer.Pull
import Mathlib.Order.Bounds.Basic
import Mathlib.Tactic.ByContra
import Mathlib.Tactic.Choose

/-!
# Pulling a tree to its end

Pulling a fresh tree again and again gives the list of its grids: as many as remain for the leaf
with the fewest records, each the one that evaluating the tree gives (`Producer.pulls_refine_eval`).
-/

namespace GridStream.Producer

/-- The answers to a number of pulls, and the world after them. -/
def pulls (s : Source) (p : Producer) : (n : Nat) → World → List (Pull Grid) × World
  | 0, w => ([], w)
  | n + 1, w =>
    let (r, w) := p.pull s w
    let (rs, w) := pulls s p n w
    (r :: rs, w)

/-- A tree that was never pulled. No producer of it is an input of two others. -/
structure Fresh (p : Producer) (w : World) : Prop where
  nodup : p.keys.Nodup
  placed : p.Placed w
  failure : ∀ k ∈ p.keys, (w.slot k).failure = none
  handle : ∀ k ∈ p.keys, (w.slot k).handle = none
  fileTime : ∀ k ∈ p.keys, (w.slot k).fileTime = none

/-- Whether no producer of a tree fails by itself for the records that lie `k` ahead: each leaf that
has such a record can read it, and each combined producer whose inputs give grids finds them equal
in shape and can apply its rule to them. -/
def Sound (p : Producer) (s : Source) (w : World) (k : Nat) : Prop :=
  ∀ q ∈ p.nodes, ∀ f, q.eval s w k ≠ .error (.failed q f)

variable {s : Source} {w w' : World} {p : Producer} {k n : Nat}

theorem Fresh.steady (h : p.Fresh w) (hc : ∀ l ∈ p.leaves, (l.cursor w).InCalendar) :
    Steady s p.nodes w where
  nodup := h.nodup
  placed q hq := h.placed _ (List.mem_map_of_mem hq)
  ready q hq := by
    have hk : q.key ∈ p.keys := List.mem_map_of_mem hq
    refine ⟨h.failure _ hk, by rw [h.fileTime _ hk, h.handle _ hk, Option.map_none], fun f e => ?_⟩
    rw [h.handle _ hk] at e
    cases e
  inCalendar := hc

/-- The first pulls of a tree give its grids, and leave those behind them ahead. -/
theorem pulls_of_ok (h : Steady s p.nodes w) (gs : List Grid)
    (hg : ∀ k (hk : k < gs.length), p.eval s w k = .ok gs[k]) :
    ∃ w', p.pulls s gs.length w = (gs.map .item, w') ∧ Steady s p.nodes w' ∧
      p.Shifted gs.length w w' := by
  induction gs generalizing w with
  | nil => exact ⟨w, rfl, h, fun l _ k => rfl⟩
  | cons g gs ih =>
    have hg₀ : p.eval s w 0 = .ok g := hg 0 (Nat.zero_lt_succ _)
    obtain ⟨w₁, hp, h₁, hshift⟩ := pull_of_ok h hg₀
    obtain ⟨w₂, hps, h₂, hshift'⟩ := ih h₁ fun k hk => by
      rw [hshift.eval]
      exact hg (k + 1) (Nat.succ_lt_succ hk)
    refine ⟨w₂, ?_, h₂, hshift.trans hshift'⟩
    simp only [List.length_cons, pulls, hp, hps, List.map_cons]

/-- Where each of some records has a grid, these make up a list. -/
theorem exists_grids (h : ∀ k < n, ∃ g, p.eval s w k = .ok g) :
    ∃ gs : List Grid, gs.length = n ∧ ∀ k (hk : k < gs.length), p.eval s w k = .ok gs[k] := by
  choose g hg using fun k : Fin n => h k k.isLt
  refine ⟨List.ofFn g, List.length_ofFn, fun k hk => ?_⟩
  rw [List.getElem_ofFn]
  exact hg ⟨k, by simpa using hk⟩

theorem pulls_concat : (p.pulls s (n + 1) w).1 =
    (p.pulls s n w).1 ++ [(p.pull s (p.pulls s n w).2).1] := by
  induction n generalizing w with
  | zero => rfl
  | succ n ih =>
    rw [pulls, pulls]
    simp only [ih, List.cons_append]

/-- Grids up to a record at which a leaf has run out are given one after the other, and then the end
of the window. -/
theorem pulls_of_eval (h : Steady s p.nodes w) {gs : List Grid}
    (hg : ∀ k (hk : k < gs.length), p.eval s w k = .ok gs[k]) {path : List Producer}
    (he : p.eval s w gs.length = .error ⟨path, none⟩) :
    (p.pulls s (gs.length + 1) w).1 = gs.map .item ++ [.finished] := by
  obtain ⟨w', hp, h', hshift⟩ := pulls_of_ok h gs hg
  have he' : p.eval s w' 0 = .error ⟨path, none⟩ := by rw [hshift.eval, Nat.zero_add, he]
  rw [pulls_concat, hp, pull_of_error h' he']
  rfl

/-- Answers that end with the end of the window come from that many grids and no more. -/
theorem eval_of_pulls (h : Steady s p.nodes w) {gs : List Grid}
    (hp : (p.pulls s (n + 1) w).1 = gs.map .item ++ [.finished]) :
    gs.length = n ∧ (∀ k (hk : k < gs.length), p.eval s w k = .ok gs[k]) ∧
      ∃ path, p.eval s w n = .error ⟨path, none⟩ := by
  induction gs generalizing w n with
  | nil =>
    rw [pulls] at hp
    obtain ⟨hr, hrs⟩ : (p.pull s w).1 = .finished ∧ (p.pulls s n (p.pull s w).2).1 = [] := by
      simpa using hp
    obtain rfl : n = 0 := by
      cases n with
      | zero => rfl
      | succ n => simp [pulls] at hrs
    refine ⟨rfl, nofun, ?_⟩
    cases hev : p.eval s w 0 with
    | ok g =>
      obtain ⟨w', hp', -⟩ := pull_of_ok h hev
      rw [hp'] at hr
      cases hr
    | error e =>
      rw [pull_of_error h hev] at hr
      obtain ⟨path, _ | f⟩ := e
      · exact ⟨path, rfl⟩
      · cases hr
  | cons g gs ih =>
    rw [pulls] at hp
    obtain ⟨hr, hrs⟩ : (p.pull s w).1 = .item g ∧
        (p.pulls s n (p.pull s w).2).1 = gs.map .item ++ [.finished] := by
      simpa using hp
    cases hev : p.eval s w 0 with
    | error e =>
      rw [pull_of_error h hev] at hr
      obtain ⟨path, _ | f⟩ := e <;> cases hr
    | ok g' =>
      obtain ⟨w', hp', h', hshift⟩ := pull_of_ok h hev
      rw [hp'] at hr hrs
      cases hr
      cases n with
      | zero => simp [pulls] at hrs
      | succ n =>
        obtain ⟨hn, hgs, path, hend⟩ := ih h' hrs
        refine ⟨by rw [List.length_cons, hn], fun k hk => ?_, path, by rw [← hshift.eval, hend]⟩
        cases k with
        | zero => exact hev
        | succ k =>
          rw [← hshift.eval, hgs k (Nat.lt_of_succ_lt_succ hk), List.getElem_cons_succ]

theorem Sound.failure_eq_none (h : p.Sound s w k) {e : Stop} (he : p.eval s w k = .error e) :
    e.failure? = none := by
  obtain ⟨q, hq, -, hself⟩ := eval_error he
  cases hf : e.failure? with
  | none => rfl
  | some f =>
    rw [hf] at hself
    exact absurd hself (h q hq f)

/-- Before the first leaf runs out of records, a tree of which no producer fails gives a grid. -/
theorem Sound.eval_eq_ok (h : p.Sound s w k)
    (hk : ∀ l ∈ p.leaves, (k : Int) < (l.cursor w).remaining) : ∃ g, p.eval s w k = .ok g := by
  cases hev : p.eval s w k with
  | ok g => exact ⟨g, rfl⟩
  | error e =>
    obtain ⟨l, hl, ht⟩ := exists_exhausted hev (h.failure_eq_none hev)
    exact absurd (hk l hl) (Int.not_lt.2 (Cursor.recordTime?_eq_none.1 ht))

/-! ## Refinement -/

/-- Repeated pulls of a fresh tree and the evaluation of the tree agree. Let `m` be the smallest
number of records that remain for a leaf. If pulls end with the end of the window, they gave the
grids of the records 0 to `m - 1` and no others. Conversely they do so if no producer fails for any
of these records, nor one for record `m` ahead of the leaf that has run out; the latter cannot be
where all leaves run out together. -/
theorem pulls_refine_eval {m : Nat} (h : p.Fresh w)
    (hc : ∀ l ∈ p.leaves, (l.cursor w).InCalendar)
    (hm : IsLeast {n : Int | ∃ l ∈ p.leaves, (l.cursor w).remaining = n} m) :
    (∀ (n : Nat) (gs : List Grid), (p.pulls s (n + 1) w).1 = gs.map .item ++ [.finished] →
      gs.length = m ∧ ∀ k (hk : k < gs.length), p.eval s w k = .ok gs[k]) ∧
    ((∀ k < m, p.Sound s w k) → (∀ path f, p.eval s w m ≠ .error ⟨path, some f⟩) →
      ∃ gs : List Grid, gs.length = m ∧ (∀ k (hk : k < gs.length), p.eval s w k = .ok gs[k]) ∧
        (p.pulls s (m + 1) w).1 = gs.map .item ++ [.finished]) ∧
    ((p.Sound s w m ∨ ∀ l ∈ p.leaves, (l.cursor w).remaining = m) →
      ∀ path f, p.eval s w m ≠ .error ⟨path, some f⟩) := by
  have hs := h.steady (s := s) hc
  obtain ⟨⟨l₀, hl₀, hrem⟩, hleast⟩ := hm
  have hleast : ∀ l ∈ p.leaves, (m : Int) ≤ (l.cursor w).remaining := fun l hl =>
    hleast ⟨l, hl, rfl⟩
  refine ⟨fun n gs hp => ?_, fun hsound hend => ?_, fun hend path f he => ?_⟩
  · obtain ⟨hn, hgs, path, he⟩ := eval_of_pulls hs hp
    refine ⟨Nat.le_antisymm ?_ ?_, hgs⟩
    · -- Every grid uses a record of the leaf with the fewest.
      by_contra hlt
      have hg := hgs m (by omega)
      have ht := Cursor.lt_remaining.2 (isSome_recordTime?_of_eval hg hl₀)
      omega
    · obtain ⟨l, hl, ht⟩ := exists_exhausted he rfl
      have hle := Int.le_trans (hleast l hl) (Cursor.recordTime?_eq_none.1 ht)
      omega
  · obtain ⟨gs, rfl, hgs⟩ := exists_grids fun k hk =>
      (hsound k hk).eval_eq_ok fun l hl => Int.lt_of_lt_of_le (Int.ofNat_lt.2 hk) (hleast l hl)
    refine ⟨gs, rfl, hgs, ?_⟩
    cases he : p.eval s w gs.length with
    | ok g =>
      have ht := Cursor.lt_remaining.2 (isSome_recordTime?_of_eval he hl₀)
      omega
    | error e =>
      obtain ⟨path, _ | f⟩ := e
      · exact pulls_of_eval hs hgs he
      · exact absurd he (hend path f)
  · rcases hend with hsound | hall
    · cases hsound.failure_eq_none he
    · obtain ⟨path', he'⟩ := eval_of_exhausted (s := s) fun l hl =>
        Cursor.recordTime?_eq_none.2 (Int.le_of_eq (hall l hl))
      rw [he] at he'
      cases he'

theorem sample_fresh : sample.Fresh sampleWorld :=
  ⟨by decide, sample_placed, fun k _ => (slot_sampleWorld k).2, fun k _ => (slot_sampleWorld k).1.1,
    fun k _ => (slot_sampleWorld k).1.2⟩

theorem sample_cursor {l : Leaf} (hl : l ∈ sample.leaves) :
    l.cursor sampleWorld = .atStart sampleWindow := by
  obtain rfl | rfl : l = ⟨0, "A", sampleWindow⟩ ∨ l = ⟨1, "B", sampleWindow⟩ := by
    simpa [sample] using hl
  · rfl
  · rfl

theorem sample_inCalendar : ∀ l ∈ sample.leaves, (l.cursor sampleWorld).InCalendar := fun l hl => by
  rw [sample_cursor hl]
  exact Cursor.inCalendar_of_stop rfl

/-- The small tree has a grid for each of its two hours. -/
theorem pulls_refine_eval_sample : sample.Fresh sampleWorld ∧
    (∀ l ∈ sample.leaves, (l.cursor sampleWorld).InCalendar) ∧
    IsLeast {n : Int | ∃ l ∈ sample.leaves, (l.cursor sampleWorld).remaining = n} (2 : Nat) ∧
    ∀ k < 2, sample.eval (sampleSource fun _ _ => true) sampleWorld k = .ok default := by
  have hm : IsLeast {n : Int | ∃ l ∈ sample.leaves, (l.cursor sampleWorld).remaining = n}
      (2 : Nat) := by
    refine ⟨⟨⟨0, "A", sampleWindow⟩, by simp [sample], rfl⟩, ?_⟩
    rintro n ⟨l, hl, rfl⟩
    rw [sample_cursor hl]
    decide
  have h := (pulls_refine_eval (s := sampleSource fun _ _ => true) sample_fresh sample_inCalendar
    hm).1 2 [default, default] rfl
  refine ⟨sample_fresh, sample_inCalendar, hm, fun k hk => ?_⟩
  rw [h.2 k hk]
  obtain rfl | rfl : k = 0 ∨ k = 1 := by omega
  all_goals rfl

end GridStream.Producer
