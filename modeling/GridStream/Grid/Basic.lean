import GridStream.Failure

/-!
# Grids

A grid is an array of doubles in row-major order together with its shape, the extents of its
dimensions from the outermost to the innermost. A grid without dimensions has one cell.
-/

namespace GridStream

/-- The number of cells of a shape. -/
def cellCount (shape : List Nat) : Nat := shape.foldr (· * ·) 1

@[simp] theorem cellCount_nil : cellCount [] = 1 := rfl

@[simp] theorem cellCount_cons (n : Nat) (shape : List Nat) :
    cellCount (n :: shape) = n * cellCount shape := rfl

/-- The position of a cell along each dimension, from its row-major position. -/
def cellAt : (shape : List Nat) → (position : Nat) → List Nat
  | [], _ => []
  | _ :: shape, position =>
    position / cellCount shape :: cellAt shape (position % cellCount shape)

/-- A shape or a position as a value, which is a tuple. -/
def extentsValue (shape : List Nat) : Value := .tuple (shape.map fun n : Nat => .int n)

/-- A shape or a position as a text. -/
def extentsText (shape : List Nat) : String := (extentsValue shape).inner

/-- Cells in row-major order with their shape. -/
structure Grid where
  shape : List Nat
  cells : Array Float
  size_eq : cells.size = cellCount shape

namespace Grid

instance : Inhabited Grid := ⟨[0], #[], rfl⟩

/-- The grid with the given cells, if there are as many as the shape asks for. -/
def ofCells? (shape : List Nat) (cells : Array Float) : Option Grid :=
  if h : cells.size = cellCount shape then some ⟨shape, cells, h⟩ else none

/-- The grid whose cells all hold `x`. -/
def fill (shape : List Nat) (x : Float) : Grid :=
  ⟨shape, Array.replicate (cellCount shape) x, Array.size_replicate⟩

/-- The grid whose cells grow by equal steps. -/
def ramp (shape : List Nat) (start step : Float) : Grid :=
  ⟨shape, Array.ofFn fun i : Fin (cellCount shape) => start + step * i.val.toFloat,
    Array.size_ofFn⟩

/-- Applies a function to every cell. -/
def map (f : Float → Float) (g : Grid) : Grid :=
  ⟨g.shape, g.cells.map f, by simp [g.size_eq]⟩

/-- Joins two grids of one shape cell by cell. -/
def zipWith (f : Float → Float → Float) (a b : Grid) (h : a.shape = b.shape) : Grid :=
  ⟨a.shape, Array.zipWith f a.cells b.cells, by simp [a.size_eq, b.size_eq, h]⟩

/-- Joins two grids cell by cell. Their shapes must be equal. -/
def zip (f : Float → Float → Float) (a b : Grid) : Attempt Grid :=
  if h : a.shape = b.shape then .ok (zipWith f a b h)
  else .error (.badValue
    (s!"operands could not be broadcast together with shapes {extentsText a.shape} " ++
      extentsText b.shape))

/-- The part of a grid at a position of its first dimension, `none` if it has no such position. -/
def record? (g : Grid) (i : Nat) : Option Grid :=
  match g.shape with
  | [] => none
  | n :: shape =>
    if i < n then
      let size := cellCount shape
      ofCells? shape (g.cells.extract (i * size) (i * size + size))
    else none

/-- The sum of grids with weights, from left to right. Grids or weights beyond the shorter list
do not count. -/
def weightedSum (weights : List Float) : List Grid → Attempt Grid
  | [] => .error (.noPosition "tuple index out of range")
  | first :: rest =>
    (weights.zip (first :: rest)).foldlM
      (fun total (weight, grid) => zip (fun sum x => sum + weight * x) total grid)
      (fill first.shape 0.0)

/-- The sum of grids, from left to right. -/
def sum : List Grid → Attempt Grid
  | [] => .error (.noPosition "tuple index out of range")
  | first :: rest => rest.foldlM (zip (· + ·)) first

end Grid

/-- Checks that the inputs of a derived quantity have one shape. The names are those of the
inputs. -/
def checkShapes (target : Value) (names : List Value) (shapes : List (List Nat)) : Attempt Unit :=
  if shapes.tail.all (shapes.head? == some ·) then .ok ()
  else
    let named := names.zip shapes
    let described := String.intercalate ", "
      (named.map fun (name, shape) => name.toText ++ "=" ++ extentsText shape)
    let shapeOf := Mapping.ofEntries (named.map fun (name, shape) => (name, extentsValue shape))
    .error {
      kind := .shapeMismatch
      message := s!"Cannot derive {target.toText}: input shapes differ ({described})"
      context := [("target", target), ("shapes", .map shapeOf)] }

end GridStream
