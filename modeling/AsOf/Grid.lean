import AsOf.Correction

namespace AsOf

/-- A buffer of the given shape, row by row. -/
abbrev Grid (α : Type) (rows cols : Nat) := Vector (Vector α cols) rows

theorem Grid.place_lt {rows cols : Nat} (i : Fin rows) (j : Fin cols) :
    i.val * cols + j.val < rows * cols := by
  have hi := i.isLt
  have hj := j.isLt
  calc i.val * cols + j.val < i.val * cols + cols := by omega
    _ = (i.val + 1) * cols := by rw [Nat.add_mul, Nat.one_mul]
    _ ≤ rows * cols := Nat.mul_le_mul_right _ hi

def Grid.ofCells? {α : Type} (rows cols : Nat) (cells : Array α) : Option (Grid α rows cols) :=
  if h : cells.size = rows * cols then
    some <| Vector.ofFn fun i => Vector.ofFn fun j =>
      have := h ▸ Grid.place_lt i j
      cells[i.val * cols + j.val]
  else none

/-- Applies a correction to every cell of its rectangle. Rows outside it are left as they are. -/
def Grid.correct {α : Type} [Cell α] {rows cols : Nat} (g : Grid α rows cols)
    (c : Correction α) : Grid α rows cols :=
  g.mapIdx fun i row =>
    if c.rect.firstRow ≤ i && i ≤ c.rect.lastRow then
      row.mapIdx fun j x => c.applyAt i j x
    else row

theorem Grid.getElem_correct {α : Type} [Cell α] {rows cols : Nat} (g : Grid α rows cols)
    (c : Correction α) (i j : Nat) (hi : i < rows) (hj : j < cols) :
    (g.correct c)[i][j] = c.applyAt i j g[i][j] := by
  unfold Grid.correct
  rw [Vector.getElem_mapIdx]
  split
  · rw [Vector.getElem_mapIdx]
  · rename_i h
    simp only [Correction.applyAt, Rect.contains, Bool.not_eq_true] at h ⊢
    simp [h]

def Grid.correctAll {α : Type} [Cell α] {rows cols : Nat} (g : Grid α rows cols)
    (cs : List (Correction α)) : Grid α rows cols :=
  cs.foldl Grid.correct g

theorem Grid.getElem_correctAll {α : Type} [Cell α] {rows cols : Nat} (g : Grid α rows cols)
    (cs : List (Correction α)) (i j : Nat) (hi : i < rows) (hj : j < cols) :
    (g.correctAll cs)[i][j] = cs.foldl (fun x c => c.applyAt i j x) g[i][j] := by
  induction cs generalizing g with
  | nil => rfl
  | cons c rest ih =>
    have := ih (g.correct c)
    rwa [Grid.getElem_correct] at this

def Grid.rowsFrom {α : Type} {rows cols : Nat} (g : Grid α rows cols) (first count : Nat) :
    List (Vector α cols) :=
  (g.toList.drop first).take count

end AsOf
