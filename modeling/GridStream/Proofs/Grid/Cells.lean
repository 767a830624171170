import GridStream.Grid.Basic
import GridStream.Proofs.Text.Digits

/-!
# Cells by their positions

The cells inside a shape and the row-major positions below its count of cells determine each other
(`position_cellAt`, `cellAt_position`), and the row-major order of positions is the lexicographic
order of cells (`position_lt_iff`). A grid is read cell by cell with `Grid.at?`.
-/

namespace GridStream

/-- Whether a cell has a position along each dimension of a shape. -/
def Inside : (shape cell : List Nat) → Prop
  | [], [] => True
  | n :: shape, i :: cell => i < n ∧ Inside shape cell
  | _, _ => False

instance decidableInside : (shape cell : List Nat) → Decidable (Inside shape cell)
  | [], [] => .isTrue trivial
  | n :: shape, i :: cell =>
    have := decidableInside shape cell
    inferInstanceAs (Decidable (i < n ∧ Inside shape cell))
  | [], _ :: _ => .isFalse id
  | _ :: _, [] => .isFalse id

/-- The row-major position of a cell. -/
def position : (shape cell : List Nat) → Nat
  | _ :: shape, i :: cell => i * cellCount shape + position shape cell
  | _, _ => 0

variable {shape cell a b : List Nat} {i : Nat}

theorem position_lt (h : Inside shape cell) : position shape cell < cellCount shape := by
  induction shape generalizing cell with
  | nil =>
    cases cell with
    | nil => exact Nat.zero_lt_one
    | cons i cell => cases h
  | cons n shape ih =>
    cases cell with
    | nil => cases h
    | cons i cell =>
      have hi : (i + 1) * cellCount shape ≤ n * cellCount shape := Nat.mul_le_mul_right _ h.1
      have hrest := ih h.2
      rw [Nat.add_mul] at hi
      rw [position, cellCount_cons]
      omega

theorem inside_cellAt (h : i < cellCount shape) : Inside shape (cellAt shape i) := by
  induction shape generalizing i with
  | nil => trivial
  | cons n shape ih =>
    rw [cellCount_cons] at h
    have hpos : 0 < cellCount shape := Nat.pos_of_lt_mul_left h
    exact ⟨Nat.div_lt_of_lt_mul (Nat.mul_comm n _ ▸ h), ih (Nat.mod_lt i hpos)⟩

theorem position_cellAt (h : i < cellCount shape) : position shape (cellAt shape i) = i := by
  induction shape generalizing i with
  | nil => exact (Nat.lt_one_iff.1 h).symm
  | cons n shape ih =>
    rw [cellCount_cons] at h
    have hpos : 0 < cellCount shape := Nat.pos_of_lt_mul_left h
    rw [cellAt, position, ih (Nat.mod_lt i hpos), Nat.div_add_mod']

theorem cellAt_position (h : Inside shape cell) : cellAt shape (position shape cell) = cell := by
  induction shape generalizing cell with
  | nil =>
    cases cell with
    | nil => rfl
    | cons i cell => cases h
  | cons n shape ih =>
    cases cell with
    | nil => cases h
    | cons i cell =>
      have hlt := position_lt h.2
      have hpos : 0 < cellCount shape := Nat.zero_lt_of_lt hlt
      rw [position, cellAt, Nat.add_comm, Nat.add_mul_div_right _ _ hpos, Nat.div_eq_of_lt hlt,
        Nat.add_mul_mod_self_right, Nat.mod_eq_of_lt hlt, Nat.zero_add, ih h.2]

/-- The row-major order of positions is the lexicographic order of cells. -/
theorem position_lt_iff (ha : Inside shape a) (hb : Inside shape b) :
    position shape a < position shape b ↔ a < b := by
  induction shape generalizing a b with
  | nil =>
    cases a with
    | nil =>
      cases b with
      | nil => simp
      | cons j b => cases hb
    | cons i a => cases ha
  | cons n shape ih =>
    cases a with
    | nil => cases ha
    | cons i a =>
      cases b with
      | nil => cases hb
      | cons j b =>
        rw [position, position, Text.mul_add_lt_iff (position_lt ha.2) (position_lt hb.2),
          ih ha.2 hb.2, List.cons_lt_cons_iff]

namespace Grid

variable {g : Grid} {x y : Float} {p : Float → Prop}

/-- The value of a cell, `none` outside the shape. -/
def at? (g : Grid) (cell : List Nat) : Option Float :=
  if Inside g.shape cell then g.cells[position g.shape cell]? else none

theorem at?_cellAt (h : i < cellCount g.shape) : g.at? (cellAt g.shape i) = g.cells[i]? := by
  rw [at?, if_pos (inside_cellAt h), position_cellAt h]

theorem at?_eq_some_iff : g.at? cell = some x ↔
    Inside g.shape cell ∧ g.cells[position g.shape cell]? = some x := by
  rw [at?, Option.ite_none_right_eq_some]

theorem exists_position (h : g.at? cell = some x) :
    ∃ i, i < cellCount g.shape ∧ cellAt g.shape i = cell ∧ g.cells[i]? = some x := by
  obtain ⟨hin, hx⟩ := at?_eq_some_iff.1 h
  exact ⟨_, position_lt hin, cellAt_position hin, hx⟩

theorem isSome_at? : (g.at? cell).isSome ↔ Inside g.shape cell := by
  rw [Option.isSome_iff_exists]
  constructor
  · rintro ⟨x, hx⟩
    exact (at?_eq_some_iff.1 hx).1
  · intro hin
    have hlt : position g.shape cell < g.cells.size := g.size_eq ▸ position_lt hin
    exact ⟨_, at?_eq_some_iff.2 ⟨hin, Array.getElem?_eq_getElem hlt⟩⟩

/-- Every entry of the array is the value of one cell. -/
theorem forall_at?_iff : (∀ cell x, g.at? cell = some x → p x) ↔ ∀ x ∈ g.cells, p x := by
  constructor
  · intro h x hx
    obtain ⟨i, hi, rfl⟩ := Array.mem_iff_getElem.1 hx
    have hcell := at?_cellAt (g.size_eq ▸ hi)
    exact h _ _ (hcell.trans (Array.getElem?_eq_getElem hi))
  · intro h cell x hx
    obtain ⟨i, -, -, hx⟩ := exists_position hx
    exact h x (Array.mem_of_getElem? hx)

theorem at?_map (f : Float → Float) : (g.map f).at? cell = (g.at? cell).map f := by
  unfold at? map
  dsimp only
  split
  · rw [Array.getElem?_map]
  · rfl

/-- The first cell in row-major order whose value satisfies `p`. -/
structure FirstCell (g : Grid) (p : Float → Prop) (cell : List Nat) (x : Float) : Prop where
  value : g.at? cell = some x
  holds : p x
  first : ∀ other y, g.at? other = some y → p y → ¬ other < cell

theorem firstCell_of_findIdx? {q : Float → Bool} (hq : ∀ x, q x = true ↔ p x)
    (h : g.cells.findIdx? q = some i) :
    ∃ x, g.cells[i]? = some x ∧ g.FirstCell p (cellAt g.shape i) x := by
  obtain ⟨hi, hx, hfirst⟩ := Array.findIdx?_eq_some_iff_getElem.1 h
  have hcount : i < cellCount g.shape := g.size_eq ▸ hi
  have hvalue := Array.getElem?_eq_getElem hi
  refine ⟨_, hvalue, (at?_cellAt hcount).trans hvalue, (hq _).1 hx, ?_⟩
  intro other y hy hp hlt
  obtain ⟨j, hj, rfl, hyj⟩ := exists_position hy
  rw [← position_lt_iff (inside_cellAt hj) (inside_cellAt hcount), position_cellAt hj,
    position_cellAt hcount] at hlt
  obtain ⟨hj, rfl⟩ := Array.getElem?_eq_some_iff.1 hyj
  exact hfirst j hlt ((hq _).2 hp)

end Grid

end GridStream
