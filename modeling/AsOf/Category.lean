namespace AsOf

/-- The kind of a corporate action; each kind is stored in a table of its own. -/
inductive Category where
  | split
  | merger
  | dividend
  deriving DecidableEq

/-- All kinds, in the order in which a load visits them. -/
def Category.all : List Category := [.split, .merger, .dividend]

def Category.name : Category → String
  | .split => "split"
  | .merger => "merger"
  | .dividend => "dividend"

def Category.table : Category → String
  | .split => "splits"
  | .merger => "mergers"
  | .dividend => "dividends"

/-- The capitalised name that stands for a kind in exchanged documents. -/
def Category.tag : Category → String
  | .split => "Split"
  | .merger => "Merger"
  | .dividend => "Dividend"

/-- Whether actions of this kind scale volumes, inversely to prices. -/
def Category.affectsVolume : Category → Bool
  | .split => true
  | .merger | .dividend => false

def Category.position (c : Category) : Nat := Category.all.idxOf c

theorem Category.mem_all (c : Category) : c ∈ Category.all := by
  cases c <;> decide

theorem Category.nodup_all : Category.all.Nodup := by decide

end AsOf
