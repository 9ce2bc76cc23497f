import AsOf.Decimal.Literal
import AsOf.Yaml.Cursor
import AsOf.Yaml.Token

namespace AsOf.Yaml

def isWordChar (c : Char) : Bool :=
  isDigit c || ('a' ≤ c && c ≤ 'z') || ('A' ≤ c && c ≤ 'Z') || c = '_' || c = '-'

/-- The characters of tags. Commas and brackets may occur only where the tag is delimited. -/
def isTagChar (delimited : Bool) (c : Char) : Bool :=
  isWordChar c || ";/?:@&=+$.%!~*'()".toList.contains c ||
    (delimited && ",[]".toList.contains c)

def percentByte? : List Char → Option (UInt8 × List Char)
  | '%' :: a :: b :: rest =>
    if [a, b].all fun d => (digitValue? 16 d).isSome then
      some (.ofNat (numeral 16 [a, b]), rest)
    else none
  | _ => none

def percentBytes? : Nat → List Char → Option (List UInt8 × List Char)
  | 0, cs => some ([], cs)
  | n + 1, cs => do
    let (b, cs) ← percentByte? cs
    let (bs, cs) ← percentBytes? n cs
    return (b :: bs, cs)

/-- How many bytes the first byte of a character announces. -/
def announcedBytes? (b : UInt8) : Option Nat :=
  if b &&& 0x80 = 0 then some 1
  else if b &&& 0xe0 = 0xc0 then some 2
  else if b &&& 0xf0 = 0xe0 then some 3
  else if b &&& 0xf8 = 0xf0 then some 4
  else none

def percentChar? (cs : List Char) : Option (List Char × List Char) := do
  let (b, _) ← percentByte? cs
  let n ← announcedBytes? b
  let (bs, rest) ← percentBytes? n cs
  let s ← String.fromUTF8? ⟨bs.toArray⟩
  return (s.toList, rest)

def unescapeTag? : Nat → List Char → Option (List Char)
  | 0, _ => none
  | _ + 1, [] => some []
  | fuel + 1, c :: rest =>
    if c = '%' then do
      let (x, rest) ← percentChar? (c :: rest)
      return x ++ (← unescapeTag? fuel rest)
    else (unescapeTag? fuel rest).map (c :: ·)

def Cursor.tagText? (c : Cursor) (delimited : Bool) (before : List Char) :
    Option (String × Cursor) := do
  let cs := c.run (isTagChar delimited)
  let text ← unescapeTag? (cs.length + 1) cs
  return (String.ofList (before ++ text), c.skip cs.length)

/-- Reads the handle of a tag: an exclamation mark, and a word with another one. -/
def Cursor.tagHandle? (c : Cursor) : Option (List Char × Cursor) :=
  if c.sees '!' then
    let word := (c.skip 1).run isWordChar
    let c := c.skip (word.length + 1)
    if c.sees '!' then some ('!' :: word ++ ['!'], c.skip 1) else some ('!' :: word, c)
  else none

def Cursor.verbatimTag? (c : Cursor) : Option (Token × Cursor) := do
  let (text, c) ← (c.skip 1).tagText? true []
  if text.isEmpty || !c.sees '>' then none else return (.tag "" text, c.skip 1)

/-- Reads a tag that is written short: a handle and a suffix, or a suffix alone. A lone exclamation
mark is a tag of its own. -/
def Cursor.shortTag? (c : Cursor) : Option (Token × Cursor) := do
  let (handle, c) ← c.tagHandle?
  if 1 < handle.length ∧ handle.getLast? = some '!' then
    let (suffix, c) ← c.tagText? false []
    if suffix.isEmpty then none else return (.tag (String.ofList handle) suffix, c)
  else
    let (suffix, c) ← c.tagText? false (handle.drop 1)
    if suffix.isEmpty then return (.tag "" "!", c) else return (.tag "!" suffix, c)

/-- Reads a tag that begins here. A blank, a line break or, in a flow collection, a comma must
follow. -/
def Cursor.tag? (c : Cursor) (inFlow : Bool) : Option (Token × Cursor) := do
  let (tag, c) ← if c.peekAt 1 = some '<' then (c.skip 1).verbatimTag? else c.shortTag?
  if isSolid c.peek && !(inFlow && c.sees ',') then none else return (tag, c)

def Cursor.anchorName? (c : Cursor) : Option (String × Cursor) :=
  let name := (c.skip 1).run isWordChar
  let c := c.skip (name.length + 1)
  if name.isEmpty || c.peek.any fun x => isSolid (some x) && !("?:,]\x7d%@\x60".toList.contains x)
  then none
  else some (String.ofList name, c)

/-- Reads a part of a version: at most nine digits. -/
def Cursor.versionPart? (c : Cursor) : Option (Nat × Cursor) :=
  let ds := c.run isDigit
  if ds.isEmpty || 9 < ds.length then none else some (numeral 10 ds, c.skip ds.length)

def Cursor.version? (c : Cursor) : Option (Token × Cursor) := do
  let (major, c) ← (c.skipRun isSpace).versionPart?
  if !c.sees '.' then none
  let (minor, c) ← (c.skip 1).versionPart?
  return (.version major minor, c)

def Cursor.tagMeaning? (c : Cursor) : Option (Token × Cursor) := do
  let (handle, c) ← (c.skipRun isSpace).tagHandle?
  if handle ≠ ['!'] ∧ ¬(1 < handle.length ∧ handle.getLast? = some '!') then none
  if !c.peek.any isSpace then none
  let (meaning, c) ← (c.skipRun isSpace).tagText? true []
  if meaning.isEmpty || isSolid c.peek then none
  return (.tagDirective (String.ofList handle) meaning, c)

def Cursor.directive? (c : Cursor) : Option (Token × Cursor) := do
  let name := (c.skip 1).run isWordChar
  let c := c.skip (name.length + 1)
  if isSolid c.peek then none
  let (directive, c) ←
    if name = "YAML".toList then c.version?
    else if name = "TAG".toList then c.tagMeaning?
    else none
  let c := (c.skipRun isSpace).skipComment
  if c.atLineEnd then return (directive, c.skipLineBreak) else none

end AsOf.Yaml
