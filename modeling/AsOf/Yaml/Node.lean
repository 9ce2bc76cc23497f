import AsOf.Json.Text
import AsOf.Yaml.Resolve
import AsOf.Yaml.Token.Scan

namespace AsOf.Yaml

inductive Node where
  | atom (a : Atom)
  | seq (items : List Node)
  | map (entries : List (Node × Node))
  /-- A node with a tag of the document's own, which is kept without its exclamation mark. -/
  | tagged (tag : String) (content : Node)

/-- Equality of scalars. An integer differs from every float; all NaNs are equal, and so are the
two zeros. -/
def Atom.same : Atom → Atom → Bool
  | .null, .null => true
  | .bool a, .bool b => a = b
  | .int m, .int n => m = n
  | .float x, .float y => (x.isNaN && y.isNaN) || x == y
  | .str s, .str t => s = t
  | _, _ => false

/-- A tag without the exclamation mark in front, unless there is nothing else to it. -/
def plainTag (tag : String) : String :=
  match tag.toList with
  | '!' :: c :: rest => String.ofList (c :: rest)
  | _ => tag

namespace Node

mutual

/-- Equality of nodes. The order of the entries of a mapping does not count. -/
def same : Node → Node → Bool
  | .atom a, .atom b => a.same b
  | .seq xs, .seq ys => sameItems xs ys
  | .map xs, .map ys => xs.length = ys.length && sameEntries xs ys
  | .tagged t x, .tagged u y => plainTag t = plainTag u && same x y
  | _, _ => false

def sameItems : List Node → List Node → Bool
  | [], [] => true
  | x :: xs, y :: ys => same x y && sameItems xs ys
  | _, _ => false

def sameEntries : List (Node × Node) → List (Node × Node) → Bool
  | [], _ => true
  | (k, v) :: rest, ys => ys.any (fun e => same k e.1 && same v e.2) && sameEntries rest ys

end

/-- The text of a scalar as a key of an object. Null and what is no finite number are no keys. -/
def key? : Node → Option String
  | .atom (.str s) => some s
  | .atom (.bool b) => some (if b then "true" else "false")
  | .atom (.int n) => some (String.ofList (Json.writeInt n))
  | .atom (.float x) => (writeFloat? Json.decimalStyle x).map String.ofList
  | _ => none

def atomJson : Atom → Json
  | .null => .null
  | .bool b => .bool b
  | .int n => .int n
  | .float x => .ofFloat x
  | .str s => .str s

mutual

/-- The node as JSON, if all keys of its mappings can be keys of objects. Of entries whose keys
become equal the last one counts. A tag becomes the only key of an object. -/
def json? : Node → Option Json
  | .atom a => some (atomJson a)
  | .seq items => (itemsJson? items).map .arr
  | .map entries => (entriesJson? entries).map fun ms => .obj (Json.sortMembers ms)
  | .tagged tag content =>
    (json? content).map fun v => .obj [("!" ++ plainTag tag, v)]

def itemsJson? : List Node → Option (List Json)
  | [] => some []
  | x :: rest => do return (← json? x) :: (← itemsJson? rest)

def entriesJson? : List (Node × Node) → Option (List (String × Json))
  | [] => some []
  | (k, v) :: rest => do return (← key? k, ← json? v) :: (← entriesJson? rest)

end

end Node

structure Anchors where
  /-- The number that a name refers to at the moment. -/
  names : List (String × Nat)
  /-- The events at which numbered nodes begin, the latest first. -/
  places : List (Nat × Nat)

/-- Notes an anchor at an event. Its number counts the distinct names before it, so that after a
name has been used again a number may be given twice; the later place then counts. -/
def Anchors.note (a : Anchors) (name : Option String) (event : Nat) : Anchors :=
  match name with
  | none => a
  | some n =>
    let id := a.names.length
    ⟨(n, id) :: a.names.filter fun e => e.1 ≠ n, (id, event) :: a.places⟩

/-- Finds the number of every alias among events, the first of which has the given index. -/
def numberAliases? (a : Anchors) (i : Nat) : List Event → Option (Anchors × List (Nat × Nat))
  | [] => some (a, [])
  | .alias n :: rest => do
    let id ← a.names.lookup n
    let (a, aliases) ← numberAliases? a (i + 1) rest
    return (a, (i, id) :: aliases)
  | .scalar p _ _ :: rest | .sequenceStart p :: rest | .mappingStart p :: rest =>
    numberAliases? (a.note p.anchor i) (i + 1) rest
  | _ :: rest => numberAliases? a (i + 1) rest

/-- The events of a document, with the event that each alias refers to. -/
structure Linked where
  events : Array Event
  /-- For each alias, by its index, the index of the event at which the node begins. -/
  targets : List (Nat × Nat)

def Linked.ofEvents? (events : Array Event) : Option Linked := do
  let (a, aliases) ← numberAliases? ⟨[], []⟩ 0 events.toList
  return ⟨events, aliases.filterMap fun (i, id) => (a.places.lookup id).map (i, ·)⟩

/-- How deeply collections may be nested. -/
def maxDepth : Nat := 128

/-- How often aliases may be followed for every event of a document. -/
def jumpsPerEvent : Nat := 100

/-- The name of a tag of the document's own: what follows the exclamation mark, if anything. -/
def localTag? (tag : Option String) : Option String :=
  tag.bind fun t =>
    match t.toList with
    | '!' :: [] => some "!"
    | '!' :: rest => some (String.ofList rest)
    | _ => none

/-- Where reading stands: the next event, and how many aliases have been followed. -/
structure Progress where
  event : Nat
  jumps : Nat

namespace Linked

mutual

/-- Reads a node, inside of collections of which `depth` more may be open. If the tag of the node
has been dealt with, or it is a key of a mapping of which that is true, tags count no more. -/
def node? (d : Linked) : Nat → Nat → Bool → Progress → Option (Node × Progress)
  | 0, _, _, _ => none
  | fuel + 1, depth, tagDone, p =>
    match d.events[p.event]? with
    | some (.alias _) => do
      if d.events.size * jumpsPerEvent < p.jumps + 1 then none
      let target ← d.targets.lookup p.event
      let (n, q) ← node? d fuel depth false ⟨target, p.jumps + 1⟩
      return (n, ⟨p.event + 1, q.jumps⟩)
    | some (.scalar props text style) =>
      match (if tagDone then none else localTag? props.tag) with
      | some tag => do
        let (n, q) ← node? d fuel depth true p
        return (.tagged tag n, q)
      | none => do
        let a ← atom? (if tagDone then none else props.tag) text style
        return (.atom a, ⟨p.event + 1, p.jumps⟩)
    | some (.sequenceStart props) =>
      match (if tagDone then none else localTag? props.tag) with
      | some tag => do
        let (n, q) ← node? d fuel depth true p
        return (.tagged tag n, q)
      | none =>
        if depth = 0 then none
        else do
          let (items, q) ← items? d fuel (depth - 1) ⟨p.event + 1, p.jumps⟩
          return (.seq items, q)
    | some (.mappingStart props) =>
      match (if tagDone then none else localTag? props.tag) with
      | some tag => do
        let (n, q) ← node? d fuel depth true p
        return (.tagged tag n, q)
      | none =>
        if depth = 0 then none
        else do
          let (entries, q) ← entries? d fuel (depth - 1) tagDone [] ⟨p.event + 1, p.jumps⟩
          return (.map entries, q)
    | _ => none

def items? (d : Linked) : Nat → Nat → Progress → Option (List Node × Progress)
  | 0, _, _ => none
  | fuel + 1, depth, p =>
    match d.events[p.event]? with
    | some .sequenceEnd => some ([], ⟨p.event + 1, p.jumps⟩)
    | _ => do
      let (n, p) ← node? d fuel depth false p
      let (rest, p) ← items? d fuel depth p
      return (n :: rest, p)

def entries? (d : Linked) :
    Nat → Nat → Bool → List Node → Progress → Option (List (Node × Node) × Progress)
  | 0, _, _, _, _ => none
  | fuel + 1, depth, tagDone, keys, p =>
    match d.events[p.event]? with
    | some .mappingEnd => some ([], ⟨p.event + 1, p.jumps⟩)
    | _ => do
      let (k, p) ← node? d fuel depth tagDone p
      if keys.any k.same then none
      let (v, p) ← node? d fuel depth false p
      let (rest, p) ← entries? d fuel depth tagDone (k :: keys) p
      return ((k, v) :: rest, p)

end

/-- How many steps reading may nest: every open collection may hold all events. -/
def fuel (d : Linked) : Nat := (maxDepth + 2) * (d.events.size + 4)

def root? (d : Linked) : Option Node :=
  if d.events.isEmpty then some (.atom .null)
  else (d.node? d.fuel maxDepth false ⟨0, 0⟩).map Prod.fst

end Linked

def Node.parse? (text : String) : Option Node := do
  let tokens ← Token.scan? text
  let events ← Event.ofTokens? tokens.toList
  let linked ← Linked.ofEvents? events
  linked.root?

end AsOf.Yaml
