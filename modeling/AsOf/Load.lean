import AsOf.AssetIndex
import AsOf.Axes
import AsOf.DateIndex
import AsOf.Schedule
import AsOf.Store.Fetch

namespace AsOf

/-- Which kinds of action a load includes, and which schedules it produces. -/
structure Flags where
  splits : Bool
  mergers : Bool
  dividends : Bool
  scope : Scope
  deriving DecidableEq

namespace Flags

def all (scope : Scope) : Flags := ⟨true, true, true, scope⟩

def includes (f : Flags) : Category → Bool
  | .split => f.splits
  | .merger => f.mergers
  | .dividend => f.dividends

/-- The kinds that contribute to the requested schedules, in visiting order. A kind that leaves
volumes alone contributes nothing to a load of volumes only. -/
def categories (f : Flags) : List Category :=
  (Category.all.filter f.includes).filter fun c => f.scope.includesPrice || c.affectsVolume

end Flags

/-- The schedules of a load; each is there if the scope asks for it. -/
structure Loaded where
  price : Option (Schedule Float)
  volume : Option (Schedule Float)

inductive LoadFault where
  | badScope (fault : UnknownScope)
  | badAxes (fault : AxisFault)
  /-- The source returned an action of an asset that was not asked for. -/
  | unknownAsset (sid : Int)
  | store (fault : StoreFault)
  deriving DecidableEq

def LoadFault.message : LoadFault → String
  | .badScope e => s!"validation: {e.message}"
  | .badAxes e => s!"validation: {e.message}"
  | .unknownAsset sid => s!"lookup: sid {sid} is not on the requested asset axis"
  | .store e => s!"store: {e.message}"

def LoadFault.causes : LoadFault → List String
  | .store e => e.message :: e.causes
  | _ => []

/-- The schedules as far as they are filled, and what has been left out. -/
structure Assembly where
  dates : DateIndex
  price : Schedule Float
  volume : Schedule Float
  beforeStart : Nat
  afterLast : Nat

def Assembly.start (x : Axes) : Assembly := ⟨.ofDates x.dates, .empty, .empty, 0, 0⟩

inductive Placement where
  | beforeStart
  | afterLast
  | cell (row col : Nat)
  /-- The action would be filed, but its asset has no column. -/
  | unknown

/-- Finds the place of an action; only an action in range is looked up on the asset axis. -/
def Assembly.locate (s : Assembly) (x : Axes) (assets : AssetIndex) (a : Action) :
    Placement × Assembly :=
  if a.effective < x.start then (.beforeStart, s)
  else
    let (row, dates) := s.dates.row a.effective
    let s := { s with dates := dates }
    if x.numDates ≤ row then (.afterLast, s)
    else match assets.column? a.sid with
      | some col => (.cell row col, s)
      | none => (.unknown, s)

/-- Files an action in the price schedule and, if it scales volumes, inversely in the volume
schedule, as far as the scope asks for them. -/
def Assembly.file (s : Assembly) (scope : Scope) (scalesVolume : Bool) (row col : Nat)
    (ratio : Float) : Assembly :=
  { s with
    price := if scope.includesPrice then s.price.push row (.multiplyCell row col ratio) else s.price
    volume :=
      if scope.includesVolume && scalesVolume then
        s.volume.push row (.multiplyCell row col (1 / ratio))
      else s.volume }

def Assembly.add (s : Assembly) (x : Axes) (assets : AssetIndex) (scope : Scope)
    (scalesVolume : Bool) (a : Action) : Run LoadFault Assembly :=
  match s.locate x assets a with
  | (.beforeStart, s) => do
    Run.log (.droppedBeforeStart a.sid a.effective)
    return { s with beforeStart := s.beforeStart + 1 }
  | (.afterLast, s) => do
    Run.log (.droppedAfterLast a.sid a.effective)
    return { s with afterLast := s.afterLast + 1 }
  | (.cell row col, s) => return s.file scope scalesVolume row col a.ratio
  | (.unknown, _) => throw (.unknownAsset a.sid)

def Assembly.addAll (s : Assembly) (x : Axes) (assets : AssetIndex) (scope : Scope)
    (scalesVolume : Bool) : List Action → Run LoadFault Assembly
  | [] => return s
  | a :: rest => do
    let s ← s.add x assets scope scalesVolume a
    s.addAll x assets scope scalesVolume rest

/-- The actions of a kind between the first session and the last, of assets on the axis. -/
def Source.fetchCategory (s : Source) (x : Axes) (assets : AssetIndex) (c : Category) :
    Run StoreFault (List Action) := do
  let sids ← s.resolve c x.span
  s.fetch c (sids.toList.filter assets.contains) x.span

def Source.fetchAll (s : Source) (x : Axes) (assets : AssetIndex) :
    List Category → Run StoreFault (List (Category × List Action))
  | [] => return []
  | c :: rest => do
    let rows ← s.fetchCategory x assets c
    Run.log (.fetched c rows.length)
    let more ← s.fetchAll x assets rest
    return (c, rows) :: more

/-- The actions that scale volumes, or those that do not, in fetch order. -/
def actionsWhere (fetched : List (Category × List Action)) (scalesVolume : Bool) : List Action :=
  (fetched.filter fun p => p.1.affectsVolume == scalesVolume).flatMap Prod.snd

/-- Loads the schedules of a request: first the splits are filed, then everything else. -/
def Source.load (s : Source) (x : Axes) (f : Flags) : Run LoadFault Loaded := do
  let assets := AssetIndex.ofAssets x.assets
  let fetched ← (s.fetchAll x assets f.categories).adapt .store
  let splits := actionsWhere fetched true
  let others := actionsWhere fetched false
  let a ← (Assembly.start x).addAll x assets f.scope true splits
  let a ← a.addAll x assets f.scope false others
  Run.log (.loaded f.scope splits.length others.length a.price.rows.length a.volume.rows.length
    a.beforeStart a.afterLast)
  return ⟨if f.scope.includesPrice then some a.price else none,
    if f.scope.includesVolume then some a.volume else none⟩

/-- A request as it comes from outside, before anything of it has been checked. -/
structure LoadRequest where
  dates : List Int
  assets : List Int
  splits : Bool
  mergers : Bool
  dividends : Bool
  scope : String

/-- Loads the schedules of an unchecked request. The scope is checked first, then the axes, and
nothing is asked unless both are valid. -/
def Source.loadRequest (s : Source) (q : LoadRequest) : Run LoadFault Loaded := do
  let scope ← Run.ofExcept ((Scope.parse q.scope).mapError .badScope)
  let x ← Run.ofExcept ((Axes.make q.dates q.assets).mapError .badAxes)
  s.load x ⟨q.splits, q.mergers, q.dividends, scope⟩

end AsOf
