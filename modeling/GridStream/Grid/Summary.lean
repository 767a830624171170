import GridStream.Decimal.Scientific
import GridStream.Grid.Basic

/-!
# Summaries of grids

The least, the greatest and the mean of the cells of a grid that are numbers.
-/

namespace GridStream

/-- Adds up cells in blocks: up to eight one after the other, up to 128 in eight interleaved
sums, more by halves. -/
def blockSum (cells : Array Float) (start count : Nat) : Float :=
  if count < 8 then inOrder start count (-0.0)
  else if h : count ≤ 128 then
    let lane (j : Nat) : Float :=
      (List.range (count / 8 - 1)).foldl (fun sum k => sum + cell (8 * (k + 1) + j)) (cell j)
    let lanes := ((lane 0 + lane 1) + (lane 2 + lane 3)) + ((lane 4 + lane 5) + (lane 6 + lane 7))
    inOrder (start + count / 8 * 8) (count % 8) lanes
  else
    let half := count / 2 / 8 * 8
    blockSum cells start half + blockSum cells (start + half) (count - half)
termination_by count
decreasing_by all_goals omega
where
  /-- The cell at a distance from the start. -/
  cell (i : Nat) : Float := cells.getD (start + i) 0.0
  /-- Adds cells one after the other to a sum. -/
  inOrder (start count : Nat) (sum : Float) : Float :=
    (List.range count).foldl (fun sum i => sum + cells.getD (start + i) 0.0) sum

/-- The preferred one of two cells, a number before what is none. -/
def preferred (better : Float → Float → Bool) (a b : Float) : Float :=
  if better a b || b.isNaN then a else b

namespace Grid

/-- The cell that is preferred over all others, `none` if there are no cells. -/
def best? (better : Float → Float → Bool) (g : Grid) : Option Float :=
  match g.cells.toList with
  | [] => none
  | c :: cs => some (cs.foldl (preferred better) c)

/-- The least cell that is a number. -/
def least? (g : Grid) : Option Float := g.best? (· ≤ ·)

/-- The greatest cell that is a number. -/
def greatest? (g : Grid) : Option Float := g.best? (· ≥ ·)

/-- The mean of the cells that are numbers. -/
def mean (g : Grid) : Float :=
  let count := (g.cells.filter (!·.isNaN)).size
  let cells := g.cells.map fun x => if x.isNaN then 0.0 else x
  (-0.0 + blockSum cells 0 cells.size) / count.toFloat

/-- Shape and summary of a grid on one line, `none` if the grid has no cells. -/
def summary? (g : Grid) : Option String := do
  let least ← g.least?
  let greatest ← g.greatest?
  let show4 := Decimal.general 4
  some (s!"shape {extentsText g.shape}, min {show4 least}, max {show4 greatest}, " ++
    s!"mean {show4 g.mean}")

end Grid

end GridStream
