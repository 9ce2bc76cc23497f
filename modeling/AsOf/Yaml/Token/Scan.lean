import AsOf.Yaml.Token.Scalar
import AsOf.Yaml.Token.Tag

namespace AsOf.Yaml

/-- A place at which a key may have begun. -/
structure KeyPlace where
  /-- Whether a colon can still turn what follows into a key. -/
  possible : Bool
  /-- Whether what follows must be a key, because it stands at the indentation of its block. -/
  required : Bool
  token : Nat
  index : Nat
  line : Nat
  column : Nat

def KeyPlace.none : KeyPlace := ⟨false, false, 0, 0, 0, 0⟩

structure Scan where
  cursor : Cursor
  tokens : Array Token
  /-- The columns of the open blocks, innermost first. -/
  blocks : List Nat
  /-- The places of keys in the open flow collections, innermost first, and in the block around
  them. -/
  keys : List KeyPlace
  keyAllowed : Bool

namespace Scan

def start (text : String) : Scan := ⟨.start text, #[], [], [.none], true⟩

def inFlow (s : Scan) : Bool := 1 < s.keys.length

/-- The column from which on text belongs to the innermost block: right of its own. -/
def margin (s : Scan) : Nat :=
  match s.blocks with
  | column :: _ => column + 1
  | [] => 0

def push (s : Scan) (t : Token) : Scan := { s with tokens := s.tokens.push t }

def take (s : Scan) (t : Token) (length : Nat) : Scan :=
  { s.push t with cursor := s.cursor.skip length }

/-- Passes over blanks, comments and line breaks. A tab is no blank where a key may begin. After a
line break in a block a key may begin. -/
def skipToToken : Nat → Scan → Scan
  | 0, s => s
  | fuel + 1, s =>
    let c := s.cursor
    let c := if c.column = 0 ∧ c.sees byteOrderMark then c.skip 1 else c
    let c := c.skipRun fun x => x = ' ' || (x = '\t' && (s.inFlow || !s.keyAllowed))
    let c := c.skipComment
    match c.lineBreak? with
    | some (_, c) =>
      skipToToken fuel { s with cursor := c, keyAllowed := s.keyAllowed || !s.inFlow }
    | none => { s with cursor := c }

/-- Gives up a place for a key that is no longer on the same line, or too far back. That fails if
there must be a key. -/
def expire? (c : Cursor) (k : KeyPlace) : Option KeyPlace :=
  if k.possible && (k.line < c.line || k.index + 1024 < c.index) then
    if k.required then none else some { k with possible := false }
  else some k

def expireKeys? (s : Scan) : Option Scan := do
  return { s with keys := ← s.keys.mapM (expire? s.cursor) }

def dropKey? (s : Scan) : Option Scan :=
  match s.keys with
  | k :: rest =>
    if k.possible && k.required then none
    else some { s with keys := { k with possible := false } :: rest }
  | [] => some s

def saveKey? (s : Scan) : Option Scan :=
  if s.keyAllowed then do
    let s ← s.dropKey?
    let c := s.cursor
    let required := !s.inFlow && s.blocks.head? = some c.column
    return { s with keys :=
      ⟨true, required, s.tokens.size, c.index, c.line, c.column⟩ :: s.keys.drop 1 }
  else some s

/-- Opens a block at a column right of the innermost one, by a token before the one of the given
number. -/
def openBlock (s : Scan) (column : Nat) (t : Token) (place : Option Nat) : Scan :=
  if s.inFlow || column < s.margin then s
  else
    { s with
      blocks := column :: s.blocks
      tokens := s.tokens.insertIdxIfInBounds (place.getD s.tokens.size) t }

/-- Ends blocks, innermost first, as long as they stand right of a column; `none` is left of all. -/
def closeBlocks (tokens : Array Token) (column : Option Nat) : List Nat → Array Token × List Nat
  | [] => (tokens, [])
  | b :: rest =>
    if column.all (· < b) then closeBlocks (tokens.push .blockEnd) column rest
    else (tokens, b :: rest)

/-- Ends the blocks that stand right of a column. In a flow collection indentation means nothing. -/
def closeTo (s : Scan) (column : Option Nat) : Scan :=
  if s.inFlow then s
  else
    let (tokens, blocks) := closeBlocks s.tokens column s.blocks
    { s with tokens, blocks }

def finish? (s : Scan) : Option Scan := do
  let s ← (s.closeTo none).dropKey?
  return s.push .streamEnd

/-- A directive or a marker of documents, before which all blocks end. -/
def atDocumentLevel? (s : Scan) : Option Scan := do
  let s ← (s.closeTo none).dropKey?
  return { s with keyAllowed := false }

def directive? (s : Scan) : Option Scan := do
  let s ← s.atDocumentLevel?
  let (t, c) ← s.cursor.directive?
  return { s.push t with cursor := c }

def documentMarker? (s : Scan) (t : Token) : Option Scan := do
  return (← s.atDocumentLevel?).take t 3

def flowStart? (s : Scan) (t : Token) : Option Scan := do
  let s ← s.saveKey?
  return { s.take t 1 with keys := .none :: s.keys, keyAllowed := true }

/-- The closing bracket of a flow collection, which need not be open. -/
def flowEnd? (s : Scan) (t : Token) : Option Scan := do
  let s ← s.dropKey?
  return { s.take t 1 with keys := if s.inFlow then s.keys.drop 1 else s.keys, keyAllowed := false }

def flowEntry? (s : Scan) : Option Scan := do
  return { (← s.dropKey?).take .flowEntry 1 with keyAllowed := true }

def blockEntry? (s : Scan) : Option Scan := do
  if !s.inFlow && !s.keyAllowed then none
  let s ← (s.openBlock s.cursor.column .blockSequenceStart none).dropKey?
  return { s.take .blockEntry 1 with keyAllowed := true }

def explicitKey? (s : Scan) : Option Scan := do
  if !s.inFlow && !s.keyAllowed then none
  let s ← (s.openBlock s.cursor.column .blockMappingStart none).dropKey?
  return { s.take .key 1 with keyAllowed := !s.inFlow }

/-- A colon: it makes a key of what has been remembered, if anything has. -/
def value? (s : Scan) : Option Scan :=
  match s.keys with
  | k :: rest =>
    if k.possible then
      let tokens := s.tokens.insertIdxIfInBounds k.token .key
      let s := { s with tokens, keys := { k with possible := false } :: rest }
      let s := s.openBlock k.column .blockMappingStart (some k.token)
      some { s.take .value 1 with keyAllowed := false }
    else if !s.inFlow && !s.keyAllowed then none
    else
      let s := s.openBlock s.cursor.column .blockMappingStart none
      some { s.take .value 1 with keyAllowed := !s.inFlow }
  | [] => none

def keyable? (s : Scan) (read : Cursor → Option (Token × Cursor)) : Option Scan := do
  let s ← s.saveKey?
  let (t, c) ← read s.cursor
  return { s.push t with cursor := c, keyAllowed := false }

/-- A plain scalar. If a line break follows it, a key may begin after it. -/
def plainScalar? (s : Scan) : Option Scan := do
  let s ← s.saveKey?
  let (text, c, broken) ← s.cursor.plain? s.inFlow s.margin
  return { s.push (.scalar text .plain) with cursor := c, keyAllowed := broken }

def quotedScalar? (s : Scan) (single : Bool) : Option Scan :=
  s.keyable? fun c => (c.quoted? single).map fun (text, c) => (.scalar text .quoted, c)

def blockScalar? (s : Scan) (folded : Bool) : Option Scan := do
  let s ← s.dropKey?
  let (text, c) ← s.cursor.block? folded s.margin
  return { s.push (.scalar text .quoted) with cursor := c, keyAllowed := true }

/-- The characters that a plain scalar cannot begin with. -/
def isIndicator (x : Char) : Bool := "-?:,[]\x7b\x7d#&*!|>'\"%@\x60".toList.contains x

/-- Whether a plain scalar begins with a character, followed by another one. -/
def beginsPlain (s : Scan) (x : Char) : Bool :=
  let next := s.cursor.peekAt 1
  !(isSpace x || isBreak x || isIndicator x) ||
    (x = '-' && !next.any isSpace) ||
    (!s.inFlow && (x = '?' || x = ':') && isSolid next)

def token? (s : Scan) (x : Char) : Option Scan :=
  let lone := !isSolid (s.cursor.peekAt 1)
  if s.cursor.column = 0 ∧ x = '%' then s.directive?
  else if s.cursor.seesMarker '-' then s.documentMarker? .documentStart
  else if s.cursor.seesMarker '.' then s.documentMarker? .documentEnd
  else if x = '[' then s.flowStart? .flowSequenceStart
  else if x = '\x7b' then s.flowStart? .flowMappingStart
  else if x = ']' then s.flowEnd? .flowSequenceEnd
  else if x = '\x7d' then s.flowEnd? .flowMappingEnd
  else if x = ',' then s.flowEntry?
  else if x = '-' ∧ lone then s.blockEntry?
  else if x = '?' ∧ (s.inFlow ∨ lone) then s.explicitKey?
  else if x = ':' ∧ (s.inFlow ∨ lone) then s.value?
  else if x = '*' then s.keyable? fun c => c.anchorName?.map fun (n, c) => (.alias n, c)
  else if x = '&' then s.keyable? fun c => c.anchorName?.map fun (n, c) => (.anchor n, c)
  else if x = '!' then s.keyable? fun c => c.tag? s.inFlow
  else if x = '|' ∧ !s.inFlow then s.blockScalar? false
  else if x = '>' ∧ !s.inFlow then s.blockScalar? true
  else if x = '\'' then s.quotedScalar? true
  else if x = '"' then s.quotedScalar? false
  else if s.beginsPlain x then s.plainScalar?
  else none

def run? : Nat → Scan → Option Scan
  | 0, _ => none
  | fuel + 1, s => do
    let s ← (skipToToken s.cursor.steps s).expireKeys?
    let s := s.closeTo (some s.cursor.column)
    match s.cursor.peek with
    | some x => run? fuel (← s.token? x)
    | none => s.finish?

end Scan

def Token.scan? (text : String) : Option (Array Token) :=
  if text.toList.all isAllowed then
    (Scan.run? (text.length + 1) (.start text)).map Scan.tokens
  else none

end AsOf.Yaml
