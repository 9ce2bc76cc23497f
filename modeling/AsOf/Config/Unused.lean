import AsOf.Config.Settings
import AsOf.Text.Quoted

namespace AsOf

mutual

def Json.leavesBelow (place : Pointer) : Json → List Pointer
  | .arr items => Json.itemLeaves place 0 items
  | .obj members => Json.memberLeaves place members
  | _ => [place]

/-- The leaves of the items of a list, counted from `i` on. -/
def Json.itemLeaves (place : Pointer) (i : Nat) : List Json → List Pointer
  | [] => []
  | v :: rest =>
    v.leavesBelow (place ++ [String.ofList (Decimal.digits i)]) ++
      Json.itemLeaves place (i + 1) rest

def Json.memberLeaves (place : Pointer) : List (String × Json) → List Pointer
  | [] => []
  | (k, v) :: rest => v.leavesBelow (place ++ [k]) ++ Json.memberLeaves place rest

end

def Json.leaves (v : Json) : List Pointer := v.leavesBelow []

/-- The text of the place of a leaf; a value that is itself a leaf is reported as a slash. -/
def Pointer.leafText (p : Pointer) : String := if p.isEmpty then "/" else p.text

def dropRepeats : List String → List String
  | a :: b :: rest => if a = b then dropRepeats (b :: rest) else a :: dropRepeats (b :: rest)
  | l => l

/-- Texts in ascending order of code points, each once. -/
def sortTexts (l : List String) : List String := dropRepeats (l.mergeSort fun a b => !(b < a))

/-- The text of a place without white space around it, with a slash in front and with none at the
end; the slash alone stands for the root. -/
def normalizePlace (s : String) : String :=
  let cs := match Text.trim s.toList with
    | '/' :: rest => rest
    | cs => cs
  String.ofList ('/' :: Text.dropEnd (· = '/') cs)

def usedPlaces : List String :=
  sortTexts (Setting.all.map fun s => normalizePlace s.pointer.text)

/-- Whether a text names the place that another text names, or one below it: it is the same text,
or goes on with a slash where the other ends. The slash alone stands for the root. -/
def coversText (place leaf : String) : Bool :=
  place = "/" || leaf = place || (place.toList ++ ['/']).isPrefixOf leaf.toList

def Pointer.isUsed (p : Pointer) : Bool := usedPlaces.any fun place => coversText place p.leafText

/-- The places of the leaves that no setting is read from, ascending, each once. -/
def Json.unusedPlaces (v : Json) : List String :=
  sortTexts ((v.leaves.filter fun p => !p.isUsed).map Pointer.leafText)

inductive UnusedPolicy where
  | warn
  | fail
  deriving DecidableEq

/-- The places that were looked at and the leaves that were not. -/
structure UnusedReport where
  used : List String
  unused : List String
  deriving DecidableEq

def UnusedReport.isClean (r : UnusedReport) : Bool := r.unused.isEmpty

structure UnusedFault where
  places : List String
  deriving DecidableEq

def UnusedFault.shown : Nat := 12

def UnusedFault.message (e : UnusedFault) : String :=
  s!"CONFIG_UNUSED_KEYS: {e.places.length} unused config leaf key(s). First few: " ++
    Text.quoteList (e.places.take UnusedFault.shown)

/-- Reports the unused leaves of a configuration; a strict policy fails if there are any. -/
def Json.reportUnused (v : Json) (policy : UnusedPolicy) : Except UnusedFault UnusedReport :=
  let report : UnusedReport := ⟨usedPlaces, v.unusedPlaces⟩
  match policy with
  | .warn => .ok report
  | .fail => if report.isClean then .ok report else .error ⟨report.unused⟩

end AsOf
