import AsOf.Yaml.Token

namespace AsOf.Yaml

/-- The properties of a node: the name that aliases refer to, and its tag in full. -/
structure Properties where
  anchor : Option String
  tag : Option String
  deriving DecidableEq

inductive Event where
  | alias (name : String)
  | scalar (properties : Properties) (text : String) (style : ScalarStyle)
  | sequenceStart (properties : Properties)
  | sequenceEnd
  | mappingStart (properties : Properties)
  | mappingEnd
  deriving DecidableEq

/-- What stands where a node has been left out. -/
def Event.empty : Event := .scalar ⟨none, none⟩ "" .plain

/-- What handles of tags stand for in a document. -/
abbrev TagHandles := List (String × String)

def TagHandles.standard : TagHandles := [("!", "!"), ("!!", "tag:yaml.org,2002:")]

/-- A tag in full. A tag without a handle is in full already. -/
def TagHandles.expand? (handles : TagHandles) (handle suffix : String) : Option String :=
  if handle = "" then some suffix else (handles.lookup handle).map (· ++ suffix)

/-- Reads the properties of a node: an anchor and a tag in either order, each at most once. -/
def properties? (handles : TagHandles) : List Token → Option (Properties × List Token)
  | .anchor a :: .tag h s :: ts | .tag h s :: .anchor a :: ts => do
    return (⟨some a, ← handles.expand? h s⟩, ts)
  | .anchor a :: ts => some (⟨some a, none⟩, ts)
  | .tag h s :: ts => do return (⟨none, ← handles.expand? h s⟩, ts)
  | ts => some (⟨none, none⟩, ts)

/-- Whether a block node has been left out in front of these tokens, in a list. -/
def endsItem (indentless : Bool) : List Token → Bool
  | .blockEntry :: _ | .blockEnd :: _ => true
  | .key :: _ | .value :: _ => indentless
  | _ => false

def endsEntry : List Token → Bool
  | .key :: _ | .value :: _ | .blockEnd :: _ => true
  | _ => false

def endsFlow (bracket : Token) (orValue : Bool) : List Token → Bool
  | .flowEntry :: _ => true
  | t :: _ => t = bracket || (orValue && t = .value)
  | [] => false

/-- Events and the tokens that are still to be read. -/
abbrev Reading := Array Event × List Token

mutual

/-- Reads a node after the given events. Only in a block may it be a block collection; the value of
a key may be a list that is not indented further than the key. -/
def node? (handles : TagHandles) : Nat → Bool → Bool → Reading → Option Reading
  | 0, _, _, _ => none
  | _ + 1, _, _, (es, .alias name :: ts) => some (es.push (.alias name), ts)
  | fuel + 1, block, indentless, (es, ts) => do
    let (p, ts) ← properties? handles ts
    match ts with
    | .scalar text style :: ts =>
      let p := if p.tag = some "!" then { p with tag := none } else p
      return (es.push (.scalar p text style), ts)
    | .flowSequenceStart :: ts => flowItems? handles fuel true (es.push (.sequenceStart p), ts)
    | .flowMappingStart :: ts => flowEntries? handles fuel true (es.push (.mappingStart p), ts)
    | .blockEntry :: ts =>
      if indentless then
        items? handles fuel true (es.push (.sequenceStart p), .blockEntry :: ts)
      else leftOut? p (es, .blockEntry :: ts)
    | .blockSequenceStart :: ts =>
      if block then items? handles fuel false (es.push (.sequenceStart p), ts)
      else leftOut? p (es, .blockSequenceStart :: ts)
    | .blockMappingStart :: ts =>
      if block then entries? handles fuel (es.push (.mappingStart p), ts)
      else leftOut? p (es, .blockMappingStart :: ts)
    | ts => leftOut? p (es, ts)

/-- A node of which only properties are written, at least one. -/
def leftOut? (p : Properties) : Reading → Option Reading
  | (es, ts) => if p = ⟨none, none⟩ then none else some (es.push (.scalar p "" .plain), ts)

def items? (handles : TagHandles) : Nat → Bool → Reading → Option Reading
  | 0, _, _ => none
  | fuel + 1, indentless, (es, ts) =>
    match ts with
    | .blockEntry :: ts =>
      if endsItem indentless ts then items? handles fuel indentless (es.push .empty, ts)
      else do items? handles fuel indentless (← node? handles fuel true false (es, ts))
    | .blockEnd :: ts =>
      some (es.push .sequenceEnd, if indentless then .blockEnd :: ts else ts)
    | ts => if indentless then some (es.push .sequenceEnd, ts) else none

def entries? (handles : TagHandles) : Nat → Reading → Option Reading
  | 0, _ => none
  | fuel + 1, (es, ts) =>
    match ts with
    | .key :: ts =>
      if endsEntry ts then entryValue? handles fuel (es.push .empty, ts)
      else do entryValue? handles fuel (← node? handles fuel true true (es, ts))
    | .blockEnd :: ts => some (es.push .mappingEnd, ts)
    | _ => none

def entryValue? (handles : TagHandles) : Nat → Reading → Option Reading
  | 0, _ => none
  | fuel + 1, (es, ts) =>
    match ts with
    | .value :: ts =>
      if endsEntry ts then entries? handles fuel (es.push .empty, ts)
      else do entries? handles fuel (← node? handles fuel true true (es, ts))
    | ts => entries? handles fuel (es.push .empty, ts)

/-- Reads the items of a list in brackets. An item may be a mapping with a single entry. -/
def flowItems? (handles : TagHandles) : Nat → Bool → Reading → Option Reading
  | 0, _, _ => none
  | fuel + 1, first, (es, ts) => do
    if let .flowSequenceEnd :: ts := ts then return (es.push .sequenceEnd, ts)
    let ts ← if first then some ts else match ts with
      | .flowEntry :: ts => some ts
      | _ => none
    match ts with
    | .flowSequenceEnd :: ts => return (es.push .sequenceEnd, ts)
    | .key :: ts =>
      let es := es.push (.mappingStart ⟨none, none⟩)
      let (es, ts) ←
        if endsFlow .flowSequenceEnd true ts then some (es.push .empty, ts.drop 1)
        else node? handles fuel false false (es, ts)
      let (es, ts) ← match ts with
        | .value :: ts =>
          if endsFlow .flowSequenceEnd false ts then some (es.push .empty, ts)
          else node? handles fuel false false (es, ts)
        | ts => some (es.push .empty, ts)
      flowItems? handles fuel false (es.push .mappingEnd, ts)
    | ts => flowItems? handles fuel false (← node? handles fuel false false (es, ts))

/-- Reads the entries of a mapping in braces. A key may stand alone. -/
def flowEntries? (handles : TagHandles) : Nat → Bool → Reading → Option Reading
  | 0, _, _ => none
  | fuel + 1, first, (es, ts) => do
    if let .flowMappingEnd :: ts := ts then return (es.push .mappingEnd, ts)
    let ts ← if first then some ts else match ts with
      | .flowEntry :: ts => some ts
      | _ => none
    match ts with
    | .flowMappingEnd :: ts => return (es.push .mappingEnd, ts)
    | .key :: ts =>
      let (es, ts) ←
        if endsFlow .flowMappingEnd true ts then some (es.push .empty, ts)
        else node? handles fuel false false (es, ts)
      let (es, ts) ← match ts with
        | .value :: ts =>
          if endsFlow .flowMappingEnd false ts then some (es.push .empty, ts)
          else node? handles fuel false false (es, ts)
        | ts => some (es.push .empty, ts)
      flowEntries? handles fuel false (es, ts)
    | ts =>
      let (es, ts) ← node? handles fuel false false (es, ts)
      flowEntries? handles fuel false (es.push .empty, ts)

end

/-- Reads the directives in front of a document: at most one version, which must be 1.1 or 1.2, and
at most one meaning for each handle. -/
def directives? (seen : Bool) (handles : TagHandles) : List Token → Option (TagHandles × List Token)
  | .version major minor :: ts =>
    if seen || major ≠ 1 || (minor ≠ 1 && minor ≠ 2) then none else directives? true handles ts
  | .tagDirective h m :: ts =>
    if (handles.lookup h).isSome then none else directives? seen ((h, m) :: handles) ts
  | ts => some (handles, ts)

def endsDocument : List Token → Bool
  | .version .. :: _ | .tagDirective .. :: _ | .documentStart :: _ | .documentEnd :: _
  | .streamEnd :: _ => true
  | _ => false

def endsStream : List Token → Bool
  | .documentEnd :: ts => endsStream ts
  | .streamEnd :: _ => true
  | _ => false

/-- Reads the node of a document, with meanings of handles beside the standard ones. -/
def document? (handles : TagHandles) (ts : List Token) : Option Reading :=
  node? (handles ++ TagHandles.standard) (3 * ts.length + 3) true false (#[], ts)

def markedDocument? (ts : List Token) : Option Reading := do
  let (handles, ts) ← directives? false [] ts
  let .documentStart :: ts := ts | none
  if endsDocument ts then return (#[.empty], ts) else document? handles ts

/-- The events of a text that holds at most one document; none at all if it holds none. -/
def Event.ofTokens? (ts : List Token) : Option (Array Event) := do
  if ts.head? = some .streamEnd then return #[]
  let bare := !endsDocument ts || ts.head? = some .documentEnd
  let (es, ts) ← if bare then document? [] ts else markedDocument? ts
  if endsStream ts then return es else none

end AsOf.Yaml
