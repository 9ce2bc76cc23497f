import Std.Data.HashMap

namespace AsOf

structure AssetIndex where
  columns : Std.HashMap Int Nat

/-- Enters the assets of a list into an index, counting columns from `n` on. -/
def AssetIndex.addFrom (x : AssetIndex) (n : Nat) : List Int → AssetIndex
  | [] => x
  | sid :: rest => AssetIndex.addFrom ⟨x.columns.insert sid n⟩ (n + 1) rest

def AssetIndex.ofAssets (assets : List Int) : AssetIndex := AssetIndex.addFrom ⟨∅⟩ 0 assets

def AssetIndex.column? (x : AssetIndex) (sid : Int) : Option Nat := x.columns[sid]?

def AssetIndex.contains (x : AssetIndex) (sid : Int) : Bool := x.columns.contains sid

end AsOf
