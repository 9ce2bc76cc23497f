import AsOf.Decimal.Literal
import AsOf.Decimal.Shortest

namespace AsOf

/-- A JSON value. Integers and floating-point numbers are kept apart. -/
inductive Json where
  | null
  | bool (b : Bool)
  | int (n : Int)
  | float (x : Float)
  | str (s : String)
  | arr (items : List Json)
  | obj (members : List (String × Json))

namespace Json

/-- A floating-point number; those that JSON has no number for become null. -/
def ofFloat (x : Float) : Json := if (Binary.ofFloat x).isFinite then .float x else .null

def lookup (k : String) : List (String × Json) → Option Json
  | [] => none
  | (j, v) :: rest => if j = k then some v else lookup k rest

/-- Sets a key in a list of members by ascending key. -/
def insert (k : String) (v : Json) : List (String × Json) → List (String × Json)
  | [] => [(k, v)]
  | (j, w) :: rest =>
    if k < j then (k, v) :: (j, w) :: rest
    else if j = k then (k, v) :: rest
    else (j, w) :: insert k v rest

/-- Members by ascending key; of several with one key, the last one counts. -/
def sortMembers (members : List (String × Json)) : List (String × Json) :=
  members.foldl (fun l p => insert p.1 p.2 l) []

mutual

/-- Every object in the value lists its members by ascending key. -/
def Sorted : Json → Prop
  | .arr items => SortedItems items
  | .obj members => (members.map Prod.fst).Pairwise (· < ·) ∧ SortedMembers members
  | _ => True

def SortedItems : List Json → Prop
  | [] => True
  | v :: rest => v.Sorted ∧ SortedItems rest

def SortedMembers : List (String × Json) → Prop
  | [] => True
  | (_, v) :: rest => v.Sorted ∧ SortedMembers rest

end

def get? (v : Json) (k : String) : Option Json :=
  match v with
  | .obj members => lookup k members
  | _ => none

end Json

end AsOf
