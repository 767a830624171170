import GridStream.Proofs.Grid.Heights

/-!
# Weighted sums cell by cell

Grids of one shape have a weighted sum of that shape, in which each cell is made of the same cell of
the grids, added up from left to right (`Grid.exists_weightedSum`).
-/

namespace GridStream.Grid

variable {α : Type} {shape cell : List Nat} {ms : List α} {y : Float}

theorem at?_fill (h : Inside shape cell) : (fill shape y).at? cell = some y := by
  refine at?_eq_some_iff.2 ⟨h, ?_⟩
  dsimp only [fill]
  rw [Array.getElem?_replicate, if_pos (position_lt h)]

/-- The sum of `total` and of weighted grids, each added to what stands on its left. -/
theorem exists_foldlM_zip (weight : α → Float) (grid : α → Grid) (total : Grid)
    (ht : total.shape = shape) (hs : ∀ m ∈ ms, (grid m).shape = shape) :
    ∃ sum, ms.foldlM (fun sum m => zip (fun sum x => sum + weight m * x) sum (grid m)) total =
        .ok sum ∧ sum.shape = shape ∧
      ∀ cell (x : α → Float) y, total.at? cell = some y →
        (∀ m ∈ ms, (grid m).at? cell = some (x m)) →
        sum.at? cell = some (ms.foldl (fun sum m => sum + weight m * x m) y) := by
  induction ms generalizing total with
  | nil => exact ⟨total, rfl, ht, fun _ _ _ hy _ => hy⟩
  | cons m ms ih =>
    rw [List.forall_mem_cons] at hs
    have hshape : total.shape = (grid m).shape := ht.trans hs.1.symm
    obtain ⟨sum, hsum, hsumShape, hcells⟩ := ih (zipWith _ total (grid m) hshape) ht hs.2
    refine ⟨sum, ?_, hsumShape, fun cell x y hy hx => ?_⟩
    · rw [List.foldlM_cons, zip, dif_pos hshape]
      exact hsum
    · rw [List.forall_mem_cons] at hx
      exact hcells cell x _ (at?_zipWith hy hx.1) hx.2

/-- Each cell of a weighted sum is a function of that cell alone. -/
theorem exists_weightedSum (weight : α → Float) (grid : α → Grid) (hne : ms ≠ [])
    (hs : ∀ m ∈ ms, (grid m).shape = shape) :
    ∃ sum, weightedSum (ms.map weight) (ms.map grid) = .ok sum ∧ sum.shape = shape ∧
      ∀ cell (x : α → Float), Inside shape cell → (∀ m ∈ ms, (grid m).at? cell = some (x m)) →
        sum.at? cell = some (ms.foldl (fun sum m => sum + weight m * x m) 0.0) := by
  obtain ⟨sum, hsum, hshape, hcells⟩ := exists_foldlM_zip weight grid (fill shape 0.0) rfl hs
  refine ⟨sum, ?_, hshape, fun cell x hin hx => hcells cell x _ (at?_fill hin) hx⟩
  cases ms with
  | nil => exact absurd rfl hne
  | cons m ms =>
    have hzip : ((m :: ms).map weight).zip ((m :: ms).map grid) =
        (m :: ms).map fun m => (weight m, grid m) := List.zip_map'
    have hfirst : (grid m).shape = shape := hs m List.mem_cons_self
    rw [List.map_cons, List.map_cons] at hzip ⊢
    rw [weightedSum, hzip, hfirst, List.foldlM_map]
    exact hsum

end GridStream.Grid
