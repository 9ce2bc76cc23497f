import AsOf.Config.Pointer
import AsOf.Load
import AsOf.Text.Blank
import AsOf.Word

namespace AsOf

/-- A place in a configuration that has a meaning. -/
inductive Setting where
  | storePath
  | maxParams
  | readOnly
  | includeSplits
  | includeMergers
  | includeDividends
  | scope
  | windowLength
  deriving DecidableEq

namespace Setting

def all : List Setting :=
  [.storePath, .maxParams, .readOnly, .includeSplits, .includeMergers, .includeDividends, .scope,
    .windowLength]

def pointer : Setting → Pointer
  | .storePath => ["store", "path"]
  | .maxParams => ["store", "max_bound_params"]
  | .readOnly => ["store", "read_only"]
  | .includeSplits => ["adjustments", "include_splits"]
  | .includeMergers => ["adjustments", "include_mergers"]
  | .includeDividends => ["adjustments", "include_dividends"]
  | .scope => ["adjustments", "scope"]
  | .windowLength => ["window", "length"]

theorem mem_all (s : Setting) : s ∈ all := by
  cases s <;> decide

def read? (s : Setting) (v : Json) : Option Json := Pointer.resolve? v s.pointer

end Setting

structure Settings where
  path : String
  maxParams : Nat
  readOnly : Bool
  splits : Bool
  mergers : Bool
  dividends : Bool
  scope : Scope
  windowLength : Option Nat
  deriving DecidableEq

/-- The fewest parameters that leave room for one asset beside the range of dates. -/
def leastMaxParams : Nat := rangeParams + 1

inductive SettingsFault where
  | missingPath
  | notString (setting : Setting)
  | notNumber (setting : Setting)
  | notBool (setting : Setting)
  | blankPath
  | fewParams (n : Nat)
  | badScope (fault : UnknownScope)
  | zeroLength
  deriving DecidableEq

namespace SettingsFault

def message : SettingsFault → String
  | .missingPath => s!"CONFIG_MISSING: {Setting.storePath.pointer.text} is required"
  | .notString s => s!"CONFIG_TYPE: {s.pointer.text} must be a string"
  | .notNumber s => s!"CONFIG_TYPE: {s.pointer.text} must be a non-negative integer"
  | .notBool s => s!"CONFIG_TYPE: {s.pointer.text} must be a bool"
  | .blankPath => s!"CONFIG_INVALID: {Setting.storePath.pointer.text} must not be empty"
  | .fewParams n =>
    s!"CONFIG_INVALID: {Setting.maxParams.pointer.text} must be at least {leastMaxParams} (got {n})"
  | .badScope _ => s!"CONFIG_INVALID: {Setting.scope.pointer.text}"
  | .zeroLength => s!"CONFIG_INVALID: {Setting.windowLength.pointer.text} must be at least 1"

def causes : SettingsFault → List String
  | .badScope e => [e.message]
  | _ => []

end SettingsFault

namespace Settings

/-- The path of the store: there, a string, and not blank. -/
def readPath (v : Json) : Except SettingsFault String :=
  match Setting.storePath.read? v with
  | none => .error .missingPath
  | some (.str path) => if Text.isBlankText path then .error .blankPath else .ok path
  | some _ => .error (.notString .storePath)

/-- A whole number of 64 bits that is not negative, if the place has a value. -/
def readNumber (s : Setting) (v : Json) : Except SettingsFault (Option Nat) :=
  match s.read? v with
  | none => .ok none
  | some (.int n) =>
    if 0 ≤ n ∧ n < unsignedBound 64 then .ok (some n.toNat) else .error (.notNumber s)
  | some _ => .error (.notNumber s)

/-- A truth value; true if the place has no value. -/
def readFlag (s : Setting) (v : Json) : Except SettingsFault Bool :=
  match s.read? v with
  | none => .ok true
  | some (.bool b) => .ok b
  | some _ => .error (.notBool s)

def readMaxParams (v : Json) : Except SettingsFault Nat := do
  let n := (← readNumber .maxParams v).getD defaultMaxParams
  if n < leastMaxParams then throw (.fewParams n)
  return n

def readScope (v : Json) : Except SettingsFault Scope :=
  match Setting.scope.read? v with
  | none => .ok .all
  | some (.str text) => (Scope.parse text).mapError .badScope
  | some _ => .error (.notString .scope)

def readLength (v : Json) : Except SettingsFault (Option Nat) := do
  let n ← readNumber .windowLength v
  if n = some 0 then throw .zeroLength
  return n

/-- Reads all settings of a configuration, or finds the first fault. -/
def read (v : Json) : Except SettingsFault Settings := do
  let path ← readPath v
  let maxParams ← readMaxParams v
  let scope ← readScope v
  let windowLength ← readLength v
  let readOnly ← readFlag .readOnly v
  let splits ← readFlag .includeSplits v
  let mergers ← readFlag .includeMergers v
  let dividends ← readFlag .includeDividends v
  return { path, maxParams, readOnly, splits, mergers, dividends, scope, windowLength }

def flags (s : Settings) : Flags := ⟨s.splits, s.mergers, s.dividends, s.scope⟩

def toJson (s : Settings) : Json :=
  .obj [
    ("store", .obj [("path", .str s.path), ("max_bound_params", .int s.maxParams),
      ("read_only", .bool s.readOnly)]),
    ("include_splits", .bool s.splits), ("include_mergers", .bool s.mergers),
    ("include_dividends", .bool s.dividends), ("scope", .str s.scope.name),
    ("window_length", (s.windowLength.map fun n => Json.int n).getD .null)]

end Settings

end AsOf
