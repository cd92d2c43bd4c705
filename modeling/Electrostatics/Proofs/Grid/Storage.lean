import Electrostatics.Number.Double
import Electrostatics.Proofs.Grid.Flatness
import Electrostatics.Proofs.Grid.Reflection
import Electrostatics.Proofs.Samples.Storage

namespace Electrostatics

/-!
# Grids as stores

A grid is a plain map from places, each a row and a column, to numbers, together with its shape.
A cell that is set outside changes nothing, one that is set inside changes that place only, and
transposing exchanges the coordinates of every place and the sides of the shape.  However a grid
was made and changed, it reads as its map does and lists its rows as they are read.
-/

open scoped Scalar

variable {α : Type}

namespace Grid

/-- A change of a grid. -/
inductive Edit (α : Type) where
  | set (row col : Nat) (value : α)
  | fill (value : α)
  | transpose

/-- How a grid is made. -/
inductive Origin (α : Type) where
  | zeros (rows cols : Nat)
  | filled (rows cols : Nat) (value : α)
  | ofRows (rows : List (List α))

/-- A shape and a number for every place, whose row comes first. -/
structure Table (α : Type) where
  rows : Nat
  cols : Nat
  cell : Nat × Nat → α

namespace Table

/-- A place within the shape of a table. -/
def Inside
    (table : Table α)
    (row col : Nat) : Prop :=
  (1 ≤ row ∧ row ≤ table.rows) ∧ 1 ≤ col ∧ col ≤ table.cols

instance (table : Table α) (row col : Nat) : Decidable (table.Inside row col) :=
  inferInstanceAs (Decidable (_ ∧ _))

/-- Replace the number of a place within the shape. -/
def set
    (table : Table α)
    (row col : Nat)
    (value : α) : Table α :=
  if table.Inside row col then
    { table with cell := Function.update table.cell (row, col) value }
  else
    table

/-- What a change of a grid does to its map. -/
def edit (table : Table α) : Edit α → Table α
  | .set row col value => table.set row col value
  | .fill value => { table with cell := fun _ => value }
  | .transpose =>
      { rows := table.cols, cols := table.rows, cell := fun place => table.cell place.swap }

variable [Scalar α]

/-- The number of a place within the shape, zero elsewhere. -/
def read
    (table : Table α)
    (row col : Nat) : α :=
  if table.Inside row col then table.cell (row, col) else 0

end Table

variable [Scalar α]

/-- Carry out a change. -/
def edit (grid : Grid α) : Edit α → Grid α
  | .set row col value => grid.set row col value
  | .fill value => grid.fill value
  | .transpose => grid.transpose

namespace Origin

/-- The grid that is made. -/
def grid : Origin α → Grid α
  | .zeros rows cols => Grid.zeros rows cols
  | .filled rows cols value => Grid.filled rows cols value
  | .ofRows rows => Grid.ofRows rows

/-- The map of the grid that is made; the first row of a list decides the number of columns. -/
def table : Origin α → Table α
  | .zeros rows cols => { rows := rows, cols := cols, cell := fun _ => 0 }
  | .filled rows cols value => { rows := rows, cols := cols, cell := fun _ => value }
  | .ofRows rows =>
      { rows := rows.length
        cols := (rows.headD []).length
        cell := fun place => (rows.getD (place.1 - 1) []).getD (place.2 - 1) 0 }

end Origin

/-- A grid has the shape of a map and reads as the map does. -/
structure Follows
    (grid : Grid α)
    (table : Table α) :
    Prop where
  rows : grid.rows = table.rows
  cols : grid.cols = table.cols
  get : ∀ row col, grid.get row col = table.read row col

/-- A grid follows a map if it has its shape and holds its numbers there. -/
theorem Follows.of_inside
    {grid : Grid α}
    {table : Table α}
    (rows : grid.rows = table.rows)
    (cols : grid.cols = table.cols)
    (inside :
      ∀ row col, table.Inside row col → grid.get row col = table.cell (row, col)) :
    grid.Follows table where
  rows := rows
  cols := cols
  get row col := by
    by_cases placed : table.Inside row col
    · rw [Table.read, if_pos placed]
      exact inside row col placed
    · rw [Table.read, if_neg placed]
      refine get_eq_zero fun met => placed ?_
      rwa [rows, cols] at met

theorem Follows.of_build
    (rows cols : Nat)
    (value : Nat → Nat → α) :
    (build rows cols value).Follows
      { rows := rows, cols := cols, cell := fun place => value place.1 place.2 } :=
  .of_inside rfl rfl fun _ _ inside => get_build value inside.1 inside.2

/-- The first row of a list, if there is one, has the length that the columns are counted by. -/
theorem ofRows_eq_build (rows : List (List α)) :
    ofRows rows =
      build rows.length (rows.headD []).length fun row col =>
        (rows.getD (row - 1) []).getD (col - 1) 0 := by
  cases rows <;> rfl

/-- A grid follows the map that it is made with. -/
theorem Origin.follows (origin : Origin α) :
    origin.grid.Follows origin.table := by
  cases origin with
  | zeros rows cols =>
      exact .of_inside rfl rfl fun row col _ => get_zeros rows cols row col
  | filled rows cols value =>
      have built := Follows.of_build rows cols fun _ _ => value
      rwa [build_const] at built
  | ofRows rows =>
      have built := Follows.of_build rows.length (rows.headD []).length fun row col =>
        (rows.getD (row - 1) []).getD (col - 1) 0
      rwa [← ofRows_eq_build] at built

namespace Follows

variable
  {grid : Grid α}
  {table : Table α}
  (follows : grid.Follows table)
include follows

/-- Within the shape the number of the map is read. -/
theorem get_inside
    {row col : Nat}
    (inside : table.Inside row col) :
    grid.get row col = table.cell (row, col) :=
  (follows.get row col).trans (if_pos inside)

theorem set
    (row col : Nat)
    (value : α) :
    (grid.set row col value).Follows (table.set row col value) := by
  have sameShape :
      table.Inside row col ↔ (1 ≤ row ∧ row ≤ grid.rows) ∧ 1 ≤ col ∧ col ≤ grid.cols := by
    rw [follows.rows, follows.cols]
    rfl
  by_cases inside : table.Inside row col
  · obtain ⟨rows, cols⟩ := shape_set grid row col value
    rw [Table.set, if_pos inside]
    refine .of_inside (rows.trans follows.rows) (cols.trans follows.cols) ?_
    intro otherRow otherCol otherInside
    have earlier : grid.get otherRow otherCol = table.cell (otherRow, otherCol) :=
      follows.get_inside otherInside
    rw [get_set (sameShape.mp inside), earlier]
    simp only [Function.update_apply, Prod.mk.injEq]
  · have kept : grid.set row col value = grid := dif_neg (mt sameShape.mpr inside)
    rw [Table.set, if_neg inside, kept]
    exact follows

/-- A filled grid follows the map that is the same number everywhere. -/
theorem fill (value : α) :
    (grid.fill value).Follows { table with cell := fun _ => value } := by
  have built := Follows.of_build grid.rows grid.cols fun _ _ => value
  rw [build_const, ← fill_eq_filled] at built
  rwa [follows.rows, follows.cols] at built

theorem transpose :
    grid.transpose.Follows
      { rows := table.cols, cols := table.rows, cell := fun place => table.cell place.swap } :=
  .of_inside follows.cols follows.rows fun row col inside =>
    (get_transpose grid row col).trans (follows.get_inside inside.symm)

/-- One change keeps grid and map together. -/
theorem edit (change : Edit α) :
    (grid.edit change).Follows (table.edit change) := by
  cases change with
  | set row col value => exact follows.set row col value
  | fill value => exact follows.fill value
  | transpose => exact follows.transpose

/-- So do any number of changes. -/
theorem edits (changes : List (Edit α)) :
    (changes.foldl Grid.edit grid).Follows (changes.foldl Table.edit table) := by
  induction changes generalizing grid table with
  | nil => exact follows
  | cons change later inductionHypothesis => exact inductionHypothesis (follows.edit change)

end Follows

/-- Reading a list at the indices from one on cuts it or fills it up. -/
theorem map_getD_indices
    {β : Type}
    (values : List β)
    (count : Nat)
    (missing : β) :
    ((indices 1 count).map fun index => values.getD (index - 1) missing) =
      values.take count ++ List.replicate (count - values.length) missing := by
  refine List.ext_getElem ?_ fun place left right => ?_
  · simp [indices]
    omega
  · have inside : place < count := by simpa [indices] using left
    simp only [indices, List.getElem_map, List.getElem_range', List.getElem_append,
      List.length_take]
    rcases Nat.lt_or_ge place values.length with given | beyond
    · simp [given, inside, Nat.add_comm 1 place]
    · simp [beyond, inside, Nat.add_comm 1 place, Nat.not_lt_of_le]

/-- A list of rows is listed again with every row cut or filled up to the length of the first. -/
theorem toRows_ofRows (rows : List (List α)) :
    (ofRows rows).toRows =
      rows.map fun row =>
        row.take (rows.headD []).length ++
          List.replicate ((rows.headD []).length - row.length) 0 := by
  rw [ofRows_eq_build, toRows_build]
  simp only [map_getD_indices]
  have listed := map_getD_indices rows rows.length []
  rw [List.take_length, Nat.sub_self, List.replicate_zero, List.append_nil] at listed
  have fitted :=
    congrArg
      (List.map fun row : List α =>
        row.take (rows.headD []).length ++
          List.replicate ((rows.headD []).length - row.length) 0)
      listed
  rw [List.map_map] at fitted
  exact fitted

end Grid

/--
Grids and runs of samples are stores that tolerate any index.  However they were made, and
whatever was set, filled, transposed or added to them, they have the shape of a plain map that
was changed alike and read as it does: its numbers inside and zero outside.  A grid lists its
rows as they are read, and a list of rows comes back with each of them cut or filled up with
zeros to the length of the first.
-/
theorem stores_follow_plain_maps [Scalar α] :
    (∀ (origin : Grid.Origin α) (changes : List (Grid.Edit α)),
      let grid := changes.foldl Grid.edit origin.grid
      let table := changes.foldl Grid.Table.edit origin.table
      grid.rows = table.rows ∧
        grid.cols = table.cols ∧
        (∀ row col, grid.get row col = table.read row col) ∧
        (∀ row col, ¬ table.Inside row col → grid.get row col = 0) ∧
        grid.toRows =
          (List.range' 1 grid.rows).map fun row =>
            (List.range' 1 grid.cols).map fun col => grid.get row col) ∧
      (∀ rows : List (List α),
        (Grid.ofRows rows).toRows =
          rows.map fun row =>
            row.take (rows.headD []).length ++
              List.replicate ((rows.headD []).length - row.length) 0) ∧
      (∀ (origin : Samples.Origin α) (changes : List (Samples.Edit α)),
        let samples := changes.foldl Samples.edit origin.samples
        let line := changes.foldl Samples.Line.edit origin.line
        samples.size = line.size ∧ ∀ index, samples.get index = line.read index) := by
  refine ⟨fun origin changes => ?_, Grid.toRows_ofRows, fun origin changes => ?_⟩
  · have follows := origin.follows.edits changes
    exact
      ⟨follows.rows, follows.cols, follows.get,
        fun row col outside => (follows.get row col).trans (if_neg outside), Grid.toRows_eq _⟩
  · have follows := origin.follows.edits changes
    exact ⟨follows.size, follows.get⟩

/-- A short row is filled up, and a place that transposing has moved inside is set. -/
example :
    ([.transpose, .set 3 2 9, .set 2 3 8].foldl Grid.edit
      (Grid.ofRows [[1, 2, 3], [4]] : Grid Float)).toRows = [[1, 4], [2, 0], [3, 9]] := by
  decide +kernel

end Electrostatics
