import AsOf.Config.Document
import AsOf.Config.Unused
import AsOf.Panel
import AsOf.Store.Database

namespace AsOf

inductive OpenFault where
  | store (path : String) (fault : DatabaseFault)
  | load (fault : LoadFault)
  deriving DecidableEq

namespace OpenFault

def message : OpenFault → String
  | .store path _ => s!"open adjustment store: {path}"
  | .load _ => "assemble adjustments"

def causes : OpenFault → List String
  | .store _ e => (StoreFault.database e).message :: (StoreFault.database e).causes
  | .load e => e.message :: e.causes

end OpenFault

/-- The store that settings name, as a source with their parameter limit. -/
def Settings.openStore (s : Settings) (d : Disk) : Except OpenFault Source :=
  match d.openFile s.path s.readOnly with
  | .ok db => .ok (db.source s.maxParams)
  | .error e => .error (.store s.path e)

def Settings.load (s : Settings) (d : Disk) (x : Axes) : Run OpenFault Loaded := do
  let source ← Run.ofExcept (s.openStore d)
  Run.log (.opened s.path s.scope x.numDates x.numAssets)
  (source.load x s.flags).adapt .load

inductive PriceFault where
  /-- The load was one of volumes only. -/
  | noPrices
  | panel (fault : WindowFault)
  | window (fault : WindowFault)
  deriving DecidableEq

namespace PriceFault

def message : PriceFault → String
  | .noPrices => "load did not produce a price schedule"
  | .panel _ => "build adjusted array"
  | .window _ => "open price window"

def causes : PriceFault → List String
  | .noPrices => []
  | .panel e | .window e => [e.message]

end PriceFault

/-- A window over a baseline of prices, corrected by what has been loaded. -/
def Loaded.priceWindow {rows cols : Nat} (l : Loaded) (baseline : Grid Float rows cols)
    (length : Nat) : Except PriceFault (Window Float rows cols) :=
  match l.price with
  | none => .error .noPrices
  | some schedule =>
    match Panel.make baseline schedule with
    | .error e => .error (.panel e)
    | .ok panel => (panel.traverse length).mapError .window

/-- What a study is given. -/
structure Study where
  seed : Seed
  /-- The path at which the seeded database is to be found. -/
  database : String
  docs : List String
  /-- Whether leaves of the configuration that set nothing are refused. -/
  strict : Bool
  /-- The first session, as a day counted from the epoch; the epoch itself if not given. -/
  firstDay : Option Int
  sessions : Nat
  assets : List Int
  /-- The length of the window, unless the configuration has one. -/
  length : Option Nat

namespace Study

inductive Fault where
  | seed (fault : SeedFault)
  | documents (fault : DocumentFault)
  | unused (fault : UnusedFault)
  | settings (fault : SettingsFault)
  /-- Sessions from the epoch on, or the assets, are no axes. -/
  | dailyAxes (fault : AxisFault)
  | axes (fault : AxisFault)
  | load (fault : OpenFault)
  deriving DecidableEq

def Fault.message : Fault → String
  | .seed e => e.message
  | .documents e => e.message
  | .unused e => e.message
  | .settings e => e.message
  | .dailyAxes _ => "build daily axes"
  | .axes e => e.message
  | .load e => e.message

def Fault.causes : Fault → List String
  | .seed e => e.causes
  | .settings e => e.causes
  | .dailyAxes e => [e.message]
  | .load e => e.causes
  | .documents _ | .unused _ | .axes _ => []

/-- The disk on which nothing but the seeded database is found. -/
def disk (s : Study) : Except SeedFault Disk :=
  s.seed.database.map fun db => ⟨[(s.database, db)], [directoryOf s.database]⟩

/-- The settings of a configuration; unused leaves are looked for first. -/
def readSettings (s : Study) (c : Configuration) : Except Fault Settings := do
  if s.strict then
    let _ ← (c.value.reportUnused .fail).mapError .unused
  (Settings.read c.value).mapError .settings

def axes (s : Study) : Except Fault Axes :=
  match s.firstDay with
  | none => (Axes.make (dailySessions 0 s.sessions) s.assets).mapError .dailyAxes
  | some d => (Axes.make (dailySessions d s.sessions) s.assets).mapError .axes

/-- What a study has found out before a window is opened. -/
structure Outcome where
  settings : Settings
  loaded : Loaded
  events : List Event

/-- Carries a study out up to the loaded schedules. -/
def perform (s : Study) : Except Fault Outcome := do
  let disk ← s.disk.mapError .seed
  let configuration ← (Configuration.ofDocuments s.docs).mapError .documents
  let settings ← s.readSettings configuration
  let x ← s.axes
  let (result, journal) := (settings.load disk x).perform .empty
  let loaded ← result.mapError .load
  return ⟨settings, loaded, journal.events⟩

/-- The length of the window: that of the settings, else that of the study, else one row. -/
def lengthFor (s : Study) (settings : Settings) : Nat :=
  settings.windowLength.getD (s.length.getD 1)

def window {rows cols : Nat} (s : Study) (o : Outcome) (baseline : Grid Float rows cols) :
    Except PriceFault (Window Float rows cols) :=
  o.loaded.priceWindow baseline (s.lengthFor o.settings)

end Study

end AsOf
