namespace AsOf

inductive CellKind where
  | float64
  | int64
  | bool
  deriving DecidableEq

def CellKind.name : CellKind → String
  | .float64 => "float64"
  | .int64 => "int64"
  | .bool => "bool"

/-- A type of cells. Arithmetic that the type cannot carry gives `none`. -/
class Cell (α : Type) where
  kind : CellKind
  scaled : α → Float → Option α
  shifted : α → Float → Option α

instance : Cell Float where
  kind := .float64
  scaled x factor := some (x * factor)
  shifted x delta := some (x + delta)

instance : Cell Int where
  kind := .int64
  scaled _ _ := none
  shifted _ _ := none

instance : Cell Bool where
  kind := .bool
  scaled _ _ := none
  shifted _ _ := none

end AsOf
