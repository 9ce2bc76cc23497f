import AsOf.Cell

namespace AsOf

inductive Operation (α : Type) where
  | multiply (factor : Float)
  | add (delta : Float)
  | overwrite (value : α)

def Operation.name {α : Type} : Operation α → String
  | .multiply _ => "multiply"
  | .add _ => "add"
  | .overwrite _ => "overwrite"

structure Rect where
  firstRow : Nat
  lastRow : Nat
  firstCol : Nat
  lastCol : Nat
  deriving DecidableEq

def Rect.contains (r : Rect) (row col : Nat) : Bool :=
  (r.firstRow ≤ row && row ≤ r.lastRow) && (r.firstCol ≤ col && col ≤ r.lastCol)

/-- The number of cells of a rectangle whose ends are in order. -/
def Rect.size (r : Rect) : Nat := (r.lastRow - r.firstRow + 1) * (r.lastCol - r.firstCol + 1)

/-- The ends are in order and the rectangle lies in a buffer of the given shape. -/
def Rect.Fits (r : Rect) (rows cols : Nat) : Prop :=
  (r.firstRow ≤ r.lastRow ∧ r.lastRow < rows) ∧ (r.firstCol ≤ r.lastCol ∧ r.lastCol < cols)

instance (r : Rect) (rows cols : Nat) : Decidable (r.Fits rows cols) :=
  inferInstanceAs (Decidable (_ ∧ _))

inductive RectFault where
  | rowsReversed
  | colsReversed
  deriving DecidableEq

def RectFault.message : RectFault → String
  | .rowsReversed => "first_row must be <= last_row"
  | .colsReversed => "first_col must be <= last_col"

/-- A rectangle from its ends; rows are looked at before columns. -/
def Rect.make (firstRow lastRow firstCol lastCol : Nat) : Except RectFault Rect :=
  if lastRow < firstRow then .error .rowsReversed
  else if lastCol < firstCol then .error .colsReversed
  else .ok ⟨firstRow, lastRow, firstCol, lastCol⟩

/-- An operation on every cell of a rectangle. -/
structure Correction (α : Type) where
  rect : Rect
  op : Operation α

/-- The correction of one cell by a factor, as a load schedules it. -/
def Correction.multiplyCell {α : Type} (row col : Nat) (factor : Float) : Correction α :=
  ⟨⟨row, row, col, col⟩, .multiply factor⟩

/-- The row that anchors a correction: the last one that it touches. -/
def Correction.row {α : Type} (c : Correction α) : Nat := c.rect.lastRow

def Correction.column {α : Type} (c : Correction α) : Nat := c.rect.firstCol

def Correction.value? {α : Type} (c : Correction α) : Option Float :=
  match c.op with
  | .multiply x | .add x => some x
  | .overwrite _ => none

/-- The corrected value of a cell, or `none` if its type cannot carry the operation. -/
def Correction.apply {α : Type} [Cell α] (c : Correction α) (x : α) : Option α :=
  match c.op with
  | .multiply factor => Cell.scaled x factor
  | .add delta => Cell.shifted x delta
  | .overwrite value => some value

/-- The effect of a correction on the cell at a place: cells outside the rectangle, and cells that
cannot carry the operation, stay. -/
def Correction.applyAt {α : Type} [Cell α] (c : Correction α) (row col : Nat) (x : α) : α :=
  if c.rect.contains row col then (c.apply x).getD x else x

end AsOf
