import Std.Data.HashMap

namespace AsOf

/-- Bisects rising dates between two bounds: all dates before the answer are at or before `date`,
all from the answer on are after it. -/
def bisectRight (dates : Array Int) (date : Int) (lo hi : Nat) (h : hi ≤ dates.size) : Nat :=
  if hlt : lo < hi then
    let mid := lo + (hi - lo) / 2
    if dates[mid] ≤ date then bisectRight dates date (mid + 1) hi h
    else bisectRight dates date lo mid (by omega)
  else lo
termination_by hi - lo

/-- Rising dates together with the rows found so far. -/
structure DateIndex where
  dates : Array Int
  known : Std.HashMap Int Nat

def DateIndex.ofDates (dates : List Int) : DateIndex := ⟨dates.toArray, ∅⟩

/-- The row at which an action of a date takes effect; the number of sessions if there is none. -/
def DateIndex.row (x : DateIndex) (date : Int) : Nat × DateIndex :=
  match x.known[date]? with
  | some r => (r, x)
  | none =>
    let r := bisectRight x.dates date 0 x.dates.size (Nat.le_refl _)
    (r, { x with known := x.known.insert date r })

/-- How many distinct dates have been looked up. -/
def DateIndex.lookups (x : DateIndex) : Nat := x.known.size

def DateIndex.rows (x : DateIndex) : List Int → List (Nat × Nat)
  | [] => []
  | d :: rest =>
    let (r, y) := x.row d
    (r, y.lookups) :: y.rows rest

end AsOf
