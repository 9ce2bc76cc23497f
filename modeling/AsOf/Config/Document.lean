import AsOf.Config.Layers
import AsOf.Yaml.Node

namespace AsOf

inductive DocumentFault where
  | unreadable (path : String)
  | badYaml
  /-- A document is YAML, but has keys that no JSON object can have. -/
  | notJson
  deriving DecidableEq

def DocumentFault.message : DocumentFault → String
  | .unreadable path => s!"failed to read yaml path: {path}"
  | .badYaml => "invalid yaml"
  | .notJson => "yaml->json conversion failed"

def Json.ofYaml (text : String) : Except DocumentFault Json :=
  match Yaml.Node.parse? text with
  | none => .error .badYaml
  | some node => node.json?.elim (.error .notJson) .ok

/-- The configuration of documents, earlier ones first. The first document that is no layer
decides. -/
def Configuration.ofDocuments (docs : List String) : Except DocumentFault Configuration :=
  (docs.mapM Json.ofYaml).map .ofLayers

/-- A file as it was found: what it holds, unless it could not be opened. -/
structure DocumentFile where
  path : String
  bytes? : Option ByteArray

def DocumentFile.text (f : DocumentFile) : Except DocumentFault String :=
  (f.bytes?.bind String.fromUTF8?).elim (.error (.unreadable f.path)) .ok

def Configuration.ofFiles (files : List DocumentFile) : Except DocumentFault Configuration :=
  (files.mapM DocumentFile.text).bind Configuration.ofDocuments

end AsOf
