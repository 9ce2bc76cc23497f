import AsOf.Decimal.Literal
import AsOf.Yaml.Cursor

namespace AsOf.Yaml

/-- What stands between two pieces of a scalar. -/
structure Gap where
  /-- Blanks before the first line break; they count only if there is none. -/
  spaces : List Char
  first : Option Char
  more : List Char
  broken : Bool

/-- The gap before anything has been read; it may begin after an escaped line break. -/
def Gap.begin (broken : Bool) : Gap := ⟨[], none, [], broken⟩

def Gap.fold (g : Gap) : List Char :=
  if g.broken then
    if g.first = some '\n' then if g.more.isEmpty then [' '] else g.more
    else g.first.toList ++ g.more
  else g.spaces

/-- Reads blanks and line breaks. On a further line, a tab before the given column is refused. -/
def Gap.read? (margin : Nat) : Nat → Gap → Cursor → Option (Gap × Cursor)
  | 0, _, _ => none
  | fuel + 1, g, c =>
    match c.lineBreak? with
    | some (b, c) =>
      if g.broken then Gap.read? margin fuel { g with more := g.more ++ [b] } c
      else Gap.read? margin fuel { g with spaces := [], first := some b, broken := true } c
    | none =>
      match c.peek with
      | some x =>
        if isSpace x then
          if g.broken then
            if x = '\t' ∧ c.column < margin then none else Gap.read? margin fuel g (c.skip 1)
          else Gap.read? margin fuel { g with spaces := g.spaces ++ [x] } (c.skip 1)
        else some (g, c)
      | none => some (g, c)

def escaped? : Char → Option Char
  | '0' => some '\x00'
  | 'a' => some '\x07'
  | 'b' => some '\x08'
  | 't' | '\t' => some '\t'
  | 'n' => some '\n'
  | 'v' => some '\x0b'
  | 'f' => some '\x0c'
  | 'r' => some '\r'
  | 'e' => some '\x1b'
  | ' ' => some ' '
  | '"' => some '"'
  | '/' => some '/'
  | '\\' => some '\\'
  | 'N' => some '\u0085'
  | '_' => some '\u00a0'
  | 'L' => some '\u2028'
  | 'P' => some '\u2029'
  | _ => none

def escapeLength? : Char → Option Nat
  | 'x' => some 2
  | 'u' => some 4
  | 'U' => some 8
  | _ => none

def charOfHex? (ds : List Char) : Option Char :=
  let n := numeral 16 ds
  if (ds.all fun d => (digitValue? 16 d).isSome) && n.isValidChar then some (Char.ofNat n) else none

/-- Reads the part of a quoted scalar up to a blank, a line break or the closing quote; the text is
kept in reverse. The answer also says whether the part ends in an escaped line break. -/
def quotedRun? (single : Bool) : Nat → List Char → Cursor → Option (List Char × Cursor × Bool)
  | 0, _, _ => none
  | fuel + 1, text, c =>
    match c.rest with
    | [] => some (text, c, false)
    | x :: rest =>
      if isSpace x || isBreak x then some (text, c, false)
      else if single then
        if x = '\'' then
          if rest.head? = some '\'' then quotedRun? single fuel ('\'' :: text) (c.skip 2)
          else some (text, c, false)
        else quotedRun? single fuel (x :: text) (c.skip 1)
      else if x = '"' then some (text, c, false)
      else if x = '\\' then
        match rest with
        | [] => none
        | y :: rest =>
          if isBreak y then some (text, (c.skip 1).skipLineBreak, true)
          else match escapeLength? y with
            | some n =>
              if rest.length < n then none
              else do
                let z ← charOfHex? (rest.take n)
                quotedRun? single fuel (z :: text) (c.skip (n + 2))
            | none => do
              let z ← escaped? y
              quotedRun? single fuel (z :: text) (c.skip 2)
      else quotedRun? single fuel (x :: text) (c.skip 1)

def quotedRest? (single : Bool) : Nat → List Char → Cursor → Option (List Char × Cursor)
  | 0, _, _ => none
  | fuel + 1, text, c =>
    if c.atDocumentMarker || c.rest.isEmpty then none
    else do
      let (text, c, escapedBreak) ← quotedRun? single c.steps text c
      if c.sees (if single then '\'' else '"') then return (text, c.skip 1)
      let (gap, c) ← Gap.read? 0 c.steps (.begin escapedBreak) c
      quotedRest? single fuel (gap.fold.reverse ++ text) c

def Cursor.quoted? (c : Cursor) (single : Bool) : Option (String × Cursor) := do
  let (text, c) ← quotedRest? single c.steps [] (c.skip 1)
  return (String.ofList text.reverse, c)

/-- Reads the part of a plain scalar up to a blank, a line break or an indicator that ends it; the
text is kept in reverse. In a flow collection a colon may not come right before another
indicator. -/
def plainRun? (inFlow : Bool) : List Char → List Char → Option (List Char)
  | text, [] => some text
  | text, x :: rest =>
    if isSpace x || isBreak x then some text
    else if x = ':' ∧ inFlow ∧ rest.head?.any (fun y => ",?[]\x7b\x7d".toList.contains y) then none
    else if x = ':' ∧ !isSolid rest.head? then some text
    else if inFlow ∧ ",[]\x7b\x7d".toList.contains x then some text
    else plainRun? inFlow (x :: text) rest

/-- Reads on in a plain scalar, of whose lines the further ones are indented by `margin` columns at
least. The gap has been read but not yet been joined. The answer also says whether the scalar is
followed by a line break. -/
def plainRest? (inFlow : Bool) (margin : Nat) :
    Nat → List Char → Gap → Cursor → Option (List Char × Cursor × Bool)
  | 0, _, _, _ => none
  | fuel + 1, text, gap, c =>
    if c.atDocumentMarker || c.sees '#' then some (text, c, gap.broken)
    else do
      let more ← plainRun? inFlow [] c.rest
      if more.isEmpty then return (text, c, gap.broken)
      let text := more ++ (gap.fold.reverse ++ text)
      let c := c.skip more.length
      let (gap, c) ← Gap.read? margin c.steps (.begin false) c
      if gap.spaces.isEmpty && !gap.broken then return (text, c, false)
      if !inFlow && c.column < margin then return (text, c, gap.broken)
      plainRest? inFlow margin fuel text gap c

def Cursor.plain? (c : Cursor) (inFlow : Bool) (margin : Nat) :
    Option (String × Cursor × Bool) := do
  let (text, c, broken) ← plainRest? inFlow margin c.steps [] (.begin false) c
  return (String.ofList text.reverse, c, broken)

/-- What becomes of the line breaks at the end of a block scalar. -/
inductive Chomp where
  | strip
  | clip
  | keep
  deriving DecidableEq

/-- Reads the header of a block scalar after its indicator: how its end is chomped and, if it is
said, by how much it is indented. -/
def Cursor.blockHeader? (c : Cursor) : Option (Chomp × Option Nat × Cursor) := do
  let chomp? (c : Cursor) : Option Chomp :=
    if c.sees '+' then some .keep else if c.sees '-' then some .strip else none
  let indent? (c : Cursor) : Option Nat :=
    (c.peek.filter isDigit).bind fun d => digitValue? 10 d
  let (chomp, indent, c) :=
    match chomp? c with
    | some x =>
      let c := c.skip 1
      match indent? c with
      | some n => (x, some n, c.skip 1)
      | none => (x, none, c)
    | none =>
      match indent? c with
      | some n =>
        let c := c.skip 1
        match chomp? c with
        | some x => (x, some n, c.skip 1)
        | none => (Chomp.clip, some n, c)
      | none => (Chomp.clip, none, c)
  if indent = some 0 then none
  let c := (c.skipRun isSpace).skipComment
  if c.atLineEnd then return (chomp, indent, c.skipLineBreak) else none

/-- Reads the line breaks and the indentation before a line of a block scalar. As long as the
indentation is not known, which is meant by 0, all spaces count to it, and the answer says how far
they go at most. A tab in the indentation is refused. -/
def blockGap? (indent : Nat) : Nat → List Char → Nat → Cursor → Option (List Char × Nat × Cursor)
  | 0, _, _, _ => none
  | fuel + 1, breaks, widest, c =>
    let spaces := (c.run fun x => x = ' ').length
    let c := c.skip (if indent = 0 then spaces else min spaces (indent - c.column))
    let widest := max widest c.column
    if (indent = 0 || c.column < indent) && c.sees '\t' then none
    else match c.lineBreak? with
      | some (b, c) => blockGap? indent fuel (breaks ++ [b]) widest c
      | none => some (breaks, widest, c)

/-- A block scalar while it is read. -/
structure BlockText where
  /-- The text in reverse, without the last line break. -/
  text : List Char
  last : Option Char
  /-- The empty lines after it. -/
  breaks : List Char
  indented : Bool

/-- What joins the last line to a further one that begins with a blank or does not. -/
def BlockText.join (b : BlockText) (folded blank : Bool) : List Char :=
  if folded && b.last = some '\n' && !b.indented && !blank then
    if b.breaks.isEmpty then [' '] else b.breaks
  else b.last.toList ++ b.breaks

def blockLines? (folded : Bool) (indent : Nat) : Nat → BlockText → Cursor →
    Option (BlockText × Cursor)
  | 0, _, _ => none
  | fuel + 1, b, c =>
    if c.column ≠ indent || c.rest.isEmpty then some (b, c)
    else do
      let blank := c.peek.any isSpace
      let line := c.run fun _ => true
      let text := line.reverse ++ ((b.join folded blank).reverse ++ b.text)
      let c := c.skip line.length
      let (last, c) := match c.lineBreak? with
        | some (x, c) => (some x, c)
        | none => (none, c)
      let (breaks, _, c) ← blockGap? indent c.steps [] 0 c
      blockLines? folded indent fuel ⟨text, last, breaks, blank⟩ c

/-- Reads a block scalar that begins here, in a block that is indented to the column before
`margin`. -/
def Cursor.block? (c : Cursor) (folded : Bool) (margin : Nat) : Option (String × Cursor) := do
  let (chomp, increment, c) ← (c.skip 1).blockHeader?
  let indent := match increment with
    | some n => (margin - 1) + n
    | none => 0
  let (breaks, widest, c) ← blockGap? indent c.steps [] 0 c
  let indent := if indent = 0 then max widest (max margin 1) else indent
  let (b, c) ← blockLines? folded indent c.steps ⟨[], none, breaks, false⟩ c
  let text := b.text.reverse ++
    (if chomp = .strip then [] else b.last.toList) ++ (if chomp = .keep then b.breaks else [])
  return (String.ofList text, c)

end AsOf.Yaml
