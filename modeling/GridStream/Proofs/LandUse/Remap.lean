import GridStream.LandUse.Classes
import GridStream.Proofs.Attempt
import GridStream.Proofs.Decimal.Nearest
import GridStream.Proofs.Grid.Cells

/-!
# Remapped grids

A grid is remapped all or nothing. It is if every cell rounds to a code of the table
(`LookupTable.Accepts`), and then each cell is the entry that the table has for its code; otherwise
the first cell that is not finite is reported or, if all are finite, the first one without an entry
(`LookupTable.remapped`). All entries are turned into doubles beforehand, so that an integer
beyond the doubles fails even if no cell has its code (`LookupTable.hugeTable_not_remapped`).
-/

namespace GridStream

open Decimal

namespace LookupTable

variable {t : LookupTable} {time : Option Instant} {g r : Grid} {x y : Float} {n : ℤ} {q : ℚ}
  {f : Failure} {cell : List Nat}

/-- Whether a cell is finite and the integer nearest to it is a code of the table. -/
def Accepts (t : LookupTable) (x : Float) : Prop := ∃ n, RoundsTo x n ∧ 1 ≤ n ∧ n ≤ t.size

instance (t : LookupTable) (x : Float) : Decidable (t.Accepts x) :=
  decidable_of_iff ((nearestInt? x).any t.covers = true) (by
    simp [Accepts, covers, Option.any_eq_true, nearestInt?_eq_some_iff])

theorem Accepts.isFinite (h : t.Accepts x) : isFinite x = true := by
  obtain ⟨n, ⟨q, hq, -⟩, -⟩ := h
  exact isFinite_iff.2 ⟨q, hq⟩

/-- What is said of a grid's time in a message. -/
def whenText : Option Instant → String
  | some time => s!" at {time.iso}"
  | none => ""

/-- A grid's time in a context. -/
def whenValue : Option Instant → Value
  | some time => .text time.iso
  | none => .null

/-- The report of a cell that is not finite. -/
def notFinite (t : LookupTable) (time : Option Instant) (cell : List Nat) : Failure :=
  { kind := .lookupRange
    message :=
      s!"Non-finite category code at cell {extentsText cell}{whenText time} in table '{t.name}'"
    context := [("table", .text t.name), ("timestamp", whenValue time),
      ("cell", extentsValue cell)] }

/-- The report of a cell without an entry, with the number of such cells. -/
def unmapped (t : LookupTable) (time : Option Instant) (cell : List Nat) (code : Int)
    (count : Nat) : Failure :=
  { kind := .lookupRange
    message :=
      s!"Category code {code} at cell {extentsText cell}{whenText time} is outside lookup table " ++
        s!"'{t.name}' (valid codes 1-{t.size}, {count} invalid cells)"
    context := [("table", .text t.name), ("timestamp", whenValue time), ("code", .int code),
      ("cell", extentsValue cell)] }

/-- The codes of a table are among those of 64 bits, which a cell has as its code. -/
theorem covers_nearestCode (hs : t.size < 2 ^ 63) :
    t.covers (nearestCode x) = true ↔ t.Accepts x := by
  have hcovers : ∀ n, t.covers n = true ↔ 1 ≤ n ∧ n ≤ t.size := fun n => by
    simp [covers]
  rw [hcovers]
  constructor
  · intro h
    rcases nearestCode_cases x with hround | hleast
    · exact ⟨_, hround, h⟩
    · omega
  · rintro ⟨n, hround, h⟩
    rw [nearestCode_of_within hround (by omega)]
    exact h

theorem remap_eq : t.remap time g =
    match g.cells.findIdx? (!isFinite ·) with
    | some i => .error (t.notFinite time (cellAt g.shape i))
    | none =>
      match (g.cells.map nearestCode).findIdx? (!t.covers ·) with
      | some i =>
        .error (t.unmapped time (cellAt g.shape i) ((g.cells.map nearestCode).getD i 0)
          ((g.cells.map nearestCode).filter (!t.covers ·)).size)
      | none =>
        match t.entries.mapM TableEntry.cell? with
        | some entries => .ok (g.map fun x => entries.getD (nearestCode x - 1).toNat 0.0)
        | none => .error (.outOfRange "int too large to convert to float") := by
  cases time <;> rfl

/-- The entry of a code within the table. -/
theorem lookup_eq_ok (h : 1 ≤ n ∧ n ≤ t.size) : ∃ entry,
    t.entries[(n - 1).toNat]? = some entry ∧ t.lookup (.int n) = .ok entry := by
  have hlt : (n - 1).toNat < t.entries.size := by
    have hle : n ≤ (t.entries.size : ℤ) := h.2
    omega
  have hentry := Array.getElem?_eq_getElem hlt
  refine ⟨_, hentry, ?_⟩
  have hfound : t.entry? n = some t.entries[(n - 1).toNat] := by
    unfold entry?
    rw [if_pos h.1, hentry]
  simp [lookup, Value.number?, hfound]

/-- A cell of the remapped grid is the entry of the code of the cell. -/
theorem cell_of_entries {cells : Array Float}
    (he : t.entries.mapM TableEntry.cell? = some cells) (hx : t.Accepts x)
    (hs : t.size < 2 ^ 63) : ∃ n entry y, RoundsTo x n ∧ t.lookup (.int n) = .ok entry ∧
      entry.cell? = some y ∧ cells.getD (nearestCode x - 1).toNat 0.0 = y := by
  obtain ⟨n, hround, hn⟩ := hx
  obtain ⟨entry, hentry, hlookup⟩ := lookup_eq_ok hn
  have hcode : nearestCode x = n := nearestCode_of_within hround (by omega)
  rw [Array.mapM_eq_mapM_toList] at he
  obtain ⟨ys, hys, rfl⟩ := Option.map_eq_some_iff.1 he
  have hcell := congrArg (·[(n - 1).toNat]?) (Attempt.mapM_eq_some_iff.1 hys)
  simp only [List.getElem?_map, Array.getElem?_toList, hentry, Option.map_some] at hcell
  obtain ⟨y, hy, hcell⟩ := Option.map_eq_some_iff.1 hcell.symm
  refine ⟨n, entry, y, hround, hlookup, hcell.symm, ?_⟩
  rw [hcode, Array.getD_eq_getD_getElem?, List.getElem?_toArray, hy]
  rfl

/-- What becomes of a grid. -/
inductive Remapped (t : LookupTable) (time : Option Instant) (g : Grid) : Attempt Grid → Prop
  | notFinite {cell : List Nat} {x : Float} (first : g.FirstCell (isFinite · = false) cell x) :
    Remapped t time g (.error (t.notFinite time cell))
  | unmapped {cell : List Nat} {x : Float}
      (finite : ∀ cell x, g.at? cell = some x → isFinite x = true)
      (first : g.FirstCell (¬ t.Accepts ·) cell x) :
    Remapped t time g
      (.error (t.unmapped time cell (nearestCode x) (g.cells.countP (¬ t.Accepts ·))))
  | outOfRange (accepted : ∀ cell x, g.at? cell = some x → t.Accepts x)
      (range : ¬ ∀ entry ∈ t.entries, entry.cell?.isSome) :
    Remapped t time g (.error (.outOfRange "int too large to convert to float"))
  | mapped {r : Grid} (accepted : ∀ cell x, g.at? cell = some x → t.Accepts x)
      (range : ∀ entry ∈ t.entries, entry.cell?.isSome) (shape : r.shape = g.shape)
      (cells : ∀ cell x, g.at? cell = some x → ∃ n entry y, RoundsTo x n ∧
        t.lookup (.int n) = .ok entry ∧ entry.cell? = some y ∧ r.at? cell = some y) :
    Remapped t time g (.ok r)

theorem remapped (hs : t.size < 2 ^ 63) : t.Remapped time g (t.remap time g) := by
  have hcovers : ∀ x, (!t.covers (nearestCode x)) = decide (¬ t.Accepts x) := fun x => by
    rw [Bool.eq_iff_iff, Bool.not_eq_true', decide_eq_true_iff, ← Bool.not_eq_true,
      covers_nearestCode hs]
  rw [remap_eq]
  split
  · next i h =>
    obtain ⟨x, -, hfirst⟩ := Grid.firstCell_of_findIdx? (p := (isFinite · = false))
      (fun x => by simp) h
    exact .notFinite hfirst
  · next hfinite =>
    rw [Array.findIdx?_eq_none_iff] at hfinite
    split
    · next i h =>
      rw [Array.findIdx?_map] at h
      obtain ⟨x, hx, hfirst⟩ := Grid.firstCell_of_findIdx? (p := (¬ t.Accepts ·))
        (fun x => by rw [Function.comp_apply, hcovers, decide_eq_true_iff]) h
      have hcode : (g.cells.map nearestCode).getD i 0 = nearestCode x := by
        rw [Array.getD_eq_getD_getElem?, Array.getElem?_map, hx]
        rfl
      have hcount : ((g.cells.map nearestCode).filter (!t.covers ·)).size =
          g.cells.countP (¬ t.Accepts ·) := by
        rw [← Array.countP_eq_size_filter, Array.countP_map]
        exact congrArg (Array.countP · g.cells) (funext hcovers)
      rw [hcode, hcount]
      refine .unmapped (Grid.forall_at?_iff.2 fun x hx => ?_) hfirst
      simpa using hfinite x hx
    · next haccepted =>
      rw [Array.findIdx?_map, Array.findIdx?_eq_none_iff] at haccepted
      have hall : ∀ cell x, g.at? cell = some x → t.Accepts x :=
        Grid.forall_at?_iff.2 fun x hx => by
          have hx := haccepted x hx
          rw [Function.comp_apply, hcovers, decide_eq_false_iff_not, not_not] at hx
          exact hx
      split
      · next cells he =>
        have hcells := Attempt.isSome_mapM_array_iff.1 (Option.isSome_of_eq_some he)
        refine .mapped hall hcells rfl fun cell x hx => ?_
        obtain ⟨n, entry, y, hround, hlookup, hy, hcell⟩ := cell_of_entries he (hall cell x hx) hs
        refine ⟨n, entry, y, hround, hlookup, hy, ?_⟩
        rw [Grid.at?_map, hx, Option.map_some, hcell]
      · next he =>
        refine .outOfRange hall fun h => ?_
        rw [← Attempt.isSome_mapM_array_iff, he] at h
        cases h

/-- A grid is remapped if all its cells round to codes of the table and all entries are within the
doubles, and then each of its cells is looked up. Otherwise the first cell that is not finite is
named or, if there is none, the first cell without an entry, with the number of such cells. The
bound on the table is that of the codes of 64 bits. -/
theorem remap_all_or_nothing (hs : t.size < 2 ^ 63) (time : Option Instant) (g : Grid) :
    ((∃ r, t.remap time g = .ok r) ↔ (∀ cell x, g.at? cell = some x → t.Accepts x) ∧
      ∀ entry ∈ t.entries, entry.cell?.isSome) ∧
    (∀ r, t.remap time g = .ok r → r.shape = g.shape ∧
      ∀ cell x, g.at? cell = some x → ∃ n entry y, RoundsTo x n ∧
        t.lookup (.int n) = .ok entry ∧ entry.cell? = some y ∧ r.at? cell = some y) ∧
    ∀ f, t.remap time g = .error f →
      (∃ cell x, g.FirstCell (isFinite · = false) cell x ∧ f = t.notFinite time cell) ∨
      ((∀ cell x, g.at? cell = some x → isFinite x = true) ∧
        ∃ cell x code, g.FirstCell (¬ t.Accepts ·) cell x ∧
          f = t.unmapped time cell code (g.cells.countP (¬ t.Accepts ·)) ∧
          ∀ q, toRat? x = some q → |q| < 2 ^ 63 → RoundsTo x code) ∨
      (∀ cell x, g.at? cell = some x → t.Accepts x) ∧
        (¬ ∀ entry ∈ t.entries, entry.cell?.isSome) ∧
        f = .outOfRange "int too large to convert to float" := by
  have hremapped := @remapped t time g hs
  generalize t.remap time g = a at hremapped
  cases hremapped with
  | notFinite first =>
    refine ⟨⟨nofun, fun h => ?_⟩, nofun, fun f hf => ?_⟩
    · have hfinite := (h.1 _ _ first.value).isFinite
      rw [first.holds] at hfinite
      cases hfinite
    · cases hf
      exact .inl ⟨_, _, first, rfl⟩
  | unmapped finite first =>
    refine ⟨⟨nofun, fun h => absurd (h.1 _ _ first.value) first.holds⟩, nofun, fun f hf => ?_⟩
    cases hf
    refine .inr (.inl ⟨finite, _, _, _, first, rfl, fun q hq hlt => ?_⟩)
    obtain ⟨n, hround⟩ := exists_roundsTo hq
    rw [nearestCode_of_within hround (hround.within hq hlt)]
    exact hround
  | outOfRange accepted range =>
    refine ⟨⟨nofun, fun h => absurd h.2 range⟩, nofun, fun f hf => ?_⟩
    cases hf
    exact .inr (.inr ⟨accepted, range, rfl⟩)
  | mapped accepted range shape cells =>
    refine ⟨⟨fun _ => ⟨accepted, range⟩, fun _ => ⟨_, rfl⟩⟩, fun r hr => ?_, nofun⟩
    cases hr
    exact ⟨shape, cells⟩

/-- Two cells between two codes each, the second one behind the last code. -/
def edgeGrid : Grid := ⟨[1, 2], #[1.5, 40.5], rfl⟩

theorem remap_all_or_nothing_edge : LandUse.particleTable.size < 2 ^ 63 ∧
    ∃ r, LandUse.particleTable.remap none edgeGrid = .ok r ∧ r.shape = [1, 2] := by
  have hs : LandUse.particleTable.size < 2 ^ 63 := by decide +kernel
  obtain ⟨hok, hcells, -⟩ := remap_all_or_nothing hs none edgeGrid
  obtain ⟨r, hr⟩ := hok.2 ⟨Grid.forall_at?_iff.2 (by decide +kernel), by decide +kernel⟩
  exact ⟨hs, r, hr, (hcells r hr).1⟩

/-- A table with an integer beyond the doubles. -/
def hugeTable : LookupTable := ⟨"huge", #[.int 1, .int (Int.pow 10 400)], by decide⟩

/-- An entry beyond the doubles fails for a grid whose cells have other codes. -/
theorem hugeTable_not_remapped :
    ¬ ((∃ r, hugeTable.remap none (.fill [1] 1.0) = .ok r) ↔
        ∀ cell x, (Grid.fill [1] 1.0).at? cell = some x → hugeTable.Accepts x) ∧
      hugeTable.remap none (.fill [1] 1.0) =
        .error (.outOfRange "int too large to convert to float") := by
  have haccepted : ∀ cell x, (Grid.fill [1] 1.0).at? cell = some x → hugeTable.Accepts x :=
    Grid.forall_at?_iff.2 (by decide +kernel)
  have hhuge : ¬ ∀ entry ∈ hugeTable.entries, entry.cell?.isSome := by decide +kernel
  have hremapped := @remapped hugeTable none (.fill [1] 1.0) (by decide)
  have herror : hugeTable.remap none (.fill [1] 1.0) =
      .error (.outOfRange "int too large to convert to float") := by
    generalize hugeTable.remap none (.fill [1] 1.0) = a at hremapped ⊢
    cases hremapped with
    | notFinite first =>
      have hfinite := (haccepted _ _ first.value).isFinite
      rw [first.holds] at hfinite
      cases hfinite
    | unmapped finite first => exact absurd (haccepted _ _ first.value) first.holds
    | outOfRange => rfl
    | mapped accepted range => exact absurd range hhuge
  refine ⟨fun h => ?_, herror⟩
  obtain ⟨r, hr⟩ := h.2 haccepted
  rw [herror] at hr
  cases hr

end LookupTable

end GridStream
