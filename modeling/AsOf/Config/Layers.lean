import AsOf.Digest
import AsOf.Json.Text

namespace AsOf

namespace Json

mutual

/-- Merges a later layer into an earlier one. -/
def merge : Json → Json → Json
  | .obj a, .obj b => .obj (mergeMembers a b)
  | _, b => b
termination_by structural _ b => b

def mergeMembers (a : List (String × Json)) : List (String × Json) → List (String × Json)
  | [] => a
  | (k, v) :: rest => mergeMembers (insert k (merge ((lookup k a).getD .null) v) a) rest
termination_by structural b => b

end

/-- Merges layers, earlier ones first, starting from an empty object. -/
def mergeAll (layers : List Json) : Json := layers.foldl merge (.obj [])

end Json

structure Configuration where
  value : Json

def Configuration.ofLayers (layers : List Json) : Configuration := ⟨Json.mergeAll layers⟩

/-- The text that identifies a configuration. -/
def Configuration.canonical (c : Configuration) : String := c.value.text

def Configuration.digest (c : Configuration) : String := Digest.sha256 c.canonical

end AsOf
