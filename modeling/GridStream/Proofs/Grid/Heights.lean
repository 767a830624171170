import GridStream.Grid.Meteorology
import GridStream.Proofs.Attempt
import GridStream.Proofs.Decimal.Equality
import GridStream.Proofs.Grid.Cells
import Mathlib.Data.List.Basic

/-!
# Heights column by column

A height is taken above the lowest cell of its own column. On the row-major data that cell is found
at the remainder of the position by the size of a layer (`Grid.position_mod_layer`), so no column
has a part in the heights of another one (`Grid.height_columns`).
-/

namespace GridStream

namespace Decimal

open Float.Model

variable {x : Float}

theorem beq_zero_iff : (x == 0.0) = true ↔ ∃ s, x.toModel.unpack = .zero s := by
  have hzero : Parts.ofFloat 0.0 = .finite false 0 (-1074) := by decide
  rw [beq_iff, hzero, Parts.ofFloat_eq]
  cases x.toModel.unpack with
  | zero s =>
    refine iff_of_true ?_ ⟨s, rfl⟩
    exact .zero _ _ _
  | finite s m e hm =>
    refine iff_of_false (fun h => ?_) nofun
    obtain ⟨b, h, -⟩ := Parts.same_finite_iff.1 h.symm
    cases h
    exact Nat.lt_irrefl 0 hm
  | _ => exact iff_of_false nofun nofun

/-- What is divided by the acceleration of gravity stays zero. -/
theorem heightOf_zero {x : Float} (h : (x == 0.0) = true) :
    (Physics.heightOf x == 0.0) = true := by
  obtain ⟨s, hs⟩ := beq_zero_iff.1 h
  refine beq_zero_iff.2 ⟨s, ?_⟩
  have hquotient : (Physics.heightOf x).toModel.unpack = (pack
      (.div Format.binary64 x.toModel.unpack Physics.standardGravity.toModel.unpack)).unpack := rfl
  rw [hquotient, hs]
  cases s <;> rfl

end Decimal

namespace Grid

variable {a b a' b' g r r' : Grid} {cell : List Nat} {x y : Float} {nz ny nx k j i : Nat}

theorem at?_zipWith {f : Float → Float → Float} {h : a.shape = b.shape}
    (hx : a.at? cell = some x) (hy : b.at? cell = some y) :
    (zipWith f a b h).at? cell = some (f x y) := by
  obtain ⟨hin, hx⟩ := at?_eq_some_iff.1 hx
  obtain ⟨-, hy⟩ := at?_eq_some_iff.1 hy
  rw [← h] at hy
  refine at?_eq_some_iff.2 ⟨hin, ?_⟩
  dsimp only [zipWith]
  rw [Array.getElem?_zipWith, hx, hy]

theorem inside_three (hk : k < nz) (hj : j < ny) (hi : i < nx) :
    Inside [nz, ny, nx] [k, j, i] := ⟨hk, hj, hi, trivial⟩

theorem position_three : position [nz, ny, nx] [k, j, i] = k * (ny * nx) + (j * nx + i) := by
  simp [position]

/-- The position within a layer is that of the lowest cell of the column. -/
theorem position_mod_layer (hj : j < ny) (hi : i < nx) :
    position [nz, ny, nx] [k, j, i] % (ny * nx) = position [nz, ny, nx] [0, j, i] := by
  have hlt : j * nx + i < ny * nx := by
    have hin : Inside [ny, nx] [j, i] := ⟨hj, hi, trivial⟩
    simpa [position] using position_lt hin
  rw [position_three, position_three, Nat.zero_mul, Nat.zero_add, Nat.add_comm,
    Nat.add_mul_mod_self_right, Nat.mod_eq_of_lt hlt]

theorem aboveLowestLayer_of_three (hg : g.shape = [nz, ny, nx]) :
    ∃ r, aboveLowestLayer g = .ok r ∧ r.shape = [nz, ny, nx] ∧
      ∀ k j i x y, g.at? [k, j, i] = some x → g.at? [0, j, i] = some y →
        r.at? [k, j, i] = some (Physics.heightOf (x - y)) := by
  obtain ⟨shape, cells, size_eq⟩ := g
  obtain rfl : shape = [nz, ny, nx] := hg
  refine ⟨_, rfl, rfl, fun k j i x y hx hy => ?_⟩
  obtain ⟨hin, hx⟩ := at?_eq_some_iff.1 hx
  obtain ⟨-, hy⟩ := at?_eq_some_iff.1 hy
  refine at?_eq_some_iff.2 ⟨hin, ?_⟩
  dsimp only at hx hy ⊢
  rw [Array.getElem?_mapIdx, hx, Option.map_some, position_mod_layer hin.2.1 hin.2.2.1,
    Array.getD_eq_getD_getElem?, hy]
  rfl

theorem aboveLowestLayer_of_not_three (hg : g.shape.length ≠ 3) : ∃ f,
    aboveLowestLayer g = .error f ∧ f.kind = .shapeMismatch ∧
      f.context = [("target", .text "height"), ("shape", extentsValue g.shape)] := by
  unfold aboveLowestLayer
  split
  · next hshape =>
    rw [hshape] at hg
    exact absurd rfl hg
  · exact ⟨_, rfl, rfl, rfl⟩

theorem height_eq (h : a.shape = b.shape) :
    a.height b = aboveLowestLayer (zipWith (· + ·) a b h) := by
  rw [height, zip, dif_pos h]
  rfl

/-- The heights of a column are those of the geopotential above its lowest cell. -/
theorem height_of_three (ha : a.shape = [nz, ny, nx]) (hb : b.shape = [nz, ny, nx]) :
    ∃ r, a.height b = .ok r ∧ r.shape = [nz, ny, nx] ∧
      ∀ k j i p q p₀ q₀, a.at? [k, j, i] = some p → b.at? [k, j, i] = some q →
        a.at? [0, j, i] = some p₀ → b.at? [0, j, i] = some q₀ →
        r.at? [k, j, i] = some (((p + q) - (p₀ + q₀)) / Physics.standardGravity) := by
  have hab : a.shape = b.shape := ha.trans hb.symm
  obtain ⟨r, hr, hshape, hcells⟩ :=
    aboveLowestLayer_of_three (g := zipWith (· + ·) a b hab) ha
  refine ⟨r, (height_eq hab).trans hr, hshape, fun k j i p q p₀ q₀ hp hq hp₀ hq₀ => ?_⟩
  exact hcells k j i _ _ (at?_zipWith hp hq) (at?_zipWith hp₀ hq₀)

/-- Every column of two grids of one shape has the cells that its heights are made of. -/
theorem exists_column (hg : g.shape = [nz, ny, nx]) (hk : k < nz) (hj : j < ny) (hi : i < nx) :
    ∃ x y, g.at? [k, j, i] = some x ∧ g.at? [0, j, i] = some y := by
  have hcell : ∀ k, k < nz → ∃ x, g.at? [k, j, i] = some x := fun k hk =>
    Option.isSome_iff_exists.1 (isSome_at?.2 (hg ▸ inside_three hk hj hi))
  obtain ⟨x, hx⟩ := hcell k hk
  obtain ⟨y, hy⟩ := hcell 0 (Nat.zero_lt_of_lt hk)
  exact ⟨x, y, hx, hy⟩

/-- What the other columns hold does not matter. -/
theorem height_congr_column (ha : a.shape = [nz, ny, nx]) (hb : b.shape = [nz, ny, nx])
    (ha' : a'.shape = [nz, ny, nx]) (hb' : b'.shape = [nz, ny, nx])
    (hr : a.height b = .ok r) (hr' : a'.height b' = .ok r')
    (haa : ∀ k, a.at? [k, j, i] = a'.at? [k, j, i])
    (hbb : ∀ k, b.at? [k, j, i] = b'.at? [k, j, i]) (k : Nat) :
    r.at? [k, j, i] = r'.at? [k, j, i] := by
  obtain ⟨_, hok, hshape, hcells⟩ := height_of_three ha hb
  cases hr.symm.trans hok
  obtain ⟨_, hok, hshape', hcells'⟩ := height_of_three ha' hb'
  cases hr'.symm.trans hok
  by_cases hin : Inside [nz, ny, nx] [k, j, i]
  · obtain ⟨hk, hj, hi, -⟩ := hin
    obtain ⟨p, p₀, hp, hp₀⟩ := exists_column ha hk hj hi
    obtain ⟨q, q₀, hq, hq₀⟩ := exists_column hb hk hj hi
    rw [hcells k j i p q p₀ q₀ hp hq hp₀ hq₀]
    rw [haa] at hp hp₀
    rw [hbb] at hq hq₀
    rw [hcells' k j i p q p₀ q₀ hp hq hp₀ hq₀]
  · rw [at?, at?, hshape, hshape', if_neg hin, if_neg hin]

/-- Heights are only taken of three dimensions, and column by column: each is the geopotential less
that of the lowest cell of the column, divided by the acceleration of gravity, so that columns that
agree have the same heights in other surroundings and the lowest height is zero. -/
theorem height_columns {a b : Grid} (hab : a.shape = b.shape) :
    ((∃ f, a.height b = .error f ∧ f.kind = .shapeMismatch) ↔ a.shape.length ≠ 3) ∧
    (∀ f, a.height b = .error f → f.kind = .shapeMismatch ∧
      f.context = [("target", .text "height"), ("shape", extentsValue a.shape)]) ∧
    ∀ nz ny nx, a.shape = [nz, ny, nx] → ∃ r, a.height b = .ok r ∧ r.shape = [nz, ny, nx] ∧
      (∀ k j i, k < nz → j < ny → i < nx → ∃ p q p₀ q₀,
        a.at? [k, j, i] = some p ∧ b.at? [k, j, i] = some q ∧
        a.at? [0, j, i] = some p₀ ∧ b.at? [0, j, i] = some q₀ ∧
        r.at? [k, j, i] = some (((p + q) - (p₀ + q₀)) / Physics.standardGravity)) ∧
      (∀ a' b' r' : Grid, a'.shape = [nz, ny, nx] → b'.shape = [nz, ny, nx] →
        a'.height b' = .ok r' → ∀ j i, (∀ k, a.at? [k, j, i] = a'.at? [k, j, i]) →
          (∀ k, b.at? [k, j, i] = b'.at? [k, j, i]) →
          ∀ k, r.at? [k, j, i] = r'.at? [k, j, i]) ∧
      ∀ j i p q, a.at? [0, j, i] = some p → b.at? [0, j, i] = some q →
        ((p + q) - (p + q) == 0.0) = true →
        ∃ h, r.at? [0, j, i] = some h ∧ (h == 0.0) = true := by
  have hthree : a.shape.length = 3 → ∃ nz ny nx, a.shape = [nz, ny, nx] := fun h =>
    List.length_eq_three.1 h
  have hfails : ∀ f, a.height b = .error f → a.shape.length ≠ 3 := by
    intro f hf h
    obtain ⟨nz, ny, nx, ha⟩ := hthree h
    obtain ⟨r, hr, -⟩ := height_of_three ha (hab.symm.trans ha)
    cases hf.symm.trans hr
  have hreport : a.shape.length ≠ 3 → ∃ f, a.height b = .error f ∧ f.kind = .shapeMismatch ∧
      f.context = [("target", .text "height"), ("shape", extentsValue a.shape)] := fun h =>
    height_eq hab ▸ aboveLowestLayer_of_not_three (g := zipWith (· + ·) a b hab) h
  refine ⟨⟨fun ⟨f, hf, _⟩ => hfails f hf, fun h => ?_⟩, fun f hf => ?_, fun nz ny nx ha => ?_⟩
  · obtain ⟨f, hf, hkind, -⟩ := hreport h
    exact ⟨f, hf, hkind⟩
  · obtain ⟨_, hf', hf''⟩ := hreport (hfails f hf)
    cases hf.symm.trans hf'
    exact hf''
  · have hb := hab.symm.trans ha
    obtain ⟨r, hr, hshape, hcells⟩ := height_of_three ha hb
    refine ⟨r, hr, hshape, fun k j i hk hj hi => ?_, fun a' b' r' ha' hb' hr' j i haa hbb =>
      height_congr_column ha hb ha' hb' hr hr' haa hbb, fun j i p q hp hq hzero => ?_⟩
    · obtain ⟨p, p₀, hp, hp₀⟩ := exists_column ha hk hj hi
      obtain ⟨q, q₀, hq, hq₀⟩ := exists_column hb hk hj hi
      exact ⟨p, q, p₀, q₀, hp, hq, hp₀, hq₀, hcells k j i p q p₀ q₀ hp hq hp₀ hq₀⟩
    · exact ⟨_, hcells 0 j i p q p q hp hq hp hq, Decimal.heightOf_zero hzero⟩

/-- Two layers of two columns, the second of which begins with infinity. -/
def twoColumns : Grid := ⟨[2, 1, 2], #[1.0, 1.0 / 0.0, 20.6133, 3.0], rfl⟩

/-- The column beside an infinite one has its height zero at the ground. -/
theorem height_columns_two : twoColumns.shape = (fill [2, 1, 2] 1.0).shape ∧
    ∃ r h, twoColumns.height (fill [2, 1, 2] 1.0) = .ok r ∧ r.at? [0, 0, 0] = some h ∧
      (h == 0.0) = true := by
  have hab : twoColumns.shape = (fill [2, 1, 2] 1.0).shape := rfl
  obtain ⟨-, -, hcolumns⟩ := height_columns hab
  obtain ⟨r, hr, -, -, -, hlowest⟩ := hcolumns 2 1 2 rfl
  obtain ⟨h, hh, hzero⟩ := hlowest 0 0 1.0 1.0 rfl rfl (by decide)
  exact ⟨hab, r, h, hr, hh, hzero⟩

end Grid

end GridStream
