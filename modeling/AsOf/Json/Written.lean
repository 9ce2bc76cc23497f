import AsOf.Json.Value
import AsOf.Word

namespace AsOf

/-- A JSON text, taken apart. -/
inductive Written where
  | null
  | bool (b : Bool)
  | whole (negative : Bool) (n : Nat)
  | decimal (literal : Literal)
  /-- A string, if all of its escapes name characters. -/
  | str (text : Option String)
  | arr (items : List Written)
  | obj (members : List (Option String × Written))

namespace Written

/-- The text after leading blanks: spaces, tabs, line feeds and carriage returns. -/
def skipBlanks (cs : List Char) : List Char :=
  cs.dropWhile fun c => c = ' ' || c = '\t' || c = '\n' || c = '\r'

def hexUnit? : List Char → Option (Nat × List Char)
  | a :: b :: c :: d :: rest =>
    if [a, b, c, d].all fun x => (digitValue? 16 x).isSome then
      some (numeral 16 [a, b, c, d], rest)
    else none
  | _ => none

def escaped? : Char → Option Char
  | '"' => some '"'
  | '\\' => some '\\'
  | '/' => some '/'
  | 'b' => some '\x08'
  | 'f' => some '\x0c'
  | 'n' => some '\n'
  | 'r' => some '\r'
  | 't' => some '\t'
  | _ => none

/-- The code units of a string up to its closing quote, each a character or a unit written by its
number; fuel bounds the length. -/
def units? : Nat → List Char → Option (List (Char ⊕ Nat) × List Char)
  | 0, _ => none
  | fuel + 1, cs =>
    match cs with
    | '"' :: rest => some ([], rest)
    | '\\' :: 'u' :: rest => do
      let (n, rest) ← hexUnit? rest
      let (us, rest) ← units? fuel rest
      return (.inr n :: us, rest)
    | '\\' :: c :: rest => do
      let c ← escaped? c
      let (us, rest) ← units? fuel rest
      return (.inl c :: us, rest)
    | c :: rest =>
      if c.toNat < 32 ∨ c = '\\' then none
      else do
        let (us, rest) ← units? fuel rest
        return (.inl c :: us, rest)
    | [] => none

/-- Joins surrogate pairs; half a pair is no character. -/
def joinUnits? : List (Char ⊕ Nat) → Option (List Char)
  | [] => some []
  | .inl c :: rest => (joinUnits? rest).map (c :: ·)
  | .inr hi :: rest =>
    if 0xd800 ≤ hi ∧ hi < 0xdc00 then
      match rest with
      | .inr lo :: rest =>
        if 0xdc00 ≤ lo ∧ lo < 0xe000 then
          (joinUnits? rest).map
            (Char.ofNat (0x10000 + (hi - 0xd800) * 0x400 + (lo - 0xdc00)) :: ·)
        else none
      | _ => none
    else if 0xdc00 ≤ hi ∧ hi < 0xe000 then none
    else (joinUnits? rest).map (Char.ofNat hi :: ·)

def readString? (cs : List Char) : Option (Option String × List Char) := do
  let (us, rest) ← units? (cs.length + 1) cs
  return ((joinUnits? us).map String.ofList, rest)

def digits? (cs : List Char) : Option (List Char × List Char) :=
  match cs.takeWhile isDigit with
  | [] => none
  | ds => some (ds, cs.dropWhile isDigit)

/-- The digits before a point; a zero stands alone. -/
def wholeDigits? (cs : List Char) : Option (List Char × List Char) := do
  let (ds, rest) ← digits? cs
  if ds.head? = some '0' ∧ 1 < ds.length then none else return (ds, rest)

/-- An exponent, if there is one; `none` if one is begun and has no digits. -/
def exponent? (cs : List Char) : Option (Option Int × List Char) :=
  match cs with
  | [] => some (none, [])
  | c :: rest =>
    if c = 'e' ∨ c = 'E' then
      match rest with
      | '-' :: rest => (digits? rest).map fun (ds, rest) => (some (-(numeral 10 ds : Int)), rest)
      | '+' :: rest => (digits? rest).map fun (ds, rest) => (some (numeral 10 ds), rest)
      | rest => (digits? rest).map fun (ds, rest) => (some (numeral 10 ds), rest)
    else some (none, c :: rest)

def readNumber? (negative : Bool) (cs : List Char) : Option (Written × List Char) := do
  let (digits, rest) ← wholeDigits? cs
  let (fraction, rest) ← match rest with
    | '.' :: rest => digits? rest
    | rest => some ([], rest)
  let (exponent, rest) ← exponent? rest
  if fraction.isEmpty && exponent.isNone then return (.whole negative (numeral 10 digits), rest)
  return (.decimal (.ofParts negative digits fraction (exponent.getD 0)), rest)

mutual

/-- Reads a value; fuel bounds the depth and the number of items. -/
def readValue? : Nat → List Char → Option (Written × List Char)
  | 0, _ => none
  | fuel + 1, cs =>
    match skipBlanks cs with
    | 'n' :: 'u' :: 'l' :: 'l' :: rest => some (.null, rest)
    | 't' :: 'r' :: 'u' :: 'e' :: rest => some (.bool true, rest)
    | 'f' :: 'a' :: 'l' :: 's' :: 'e' :: rest => some (.bool false, rest)
    | '"' :: rest => (readString? rest).map fun (s, rest) => (.str s, rest)
    | '-' :: rest => readNumber? true rest
    | '[' :: rest =>
      match skipBlanks rest with
      | ']' :: rest => some (.arr [], rest)
      | rest => (readItems? fuel rest).map fun (vs, rest) => (.arr vs, rest)
    | '\x7b' :: rest =>
      match skipBlanks rest with
      | '\x7d' :: rest => some (.obj [], rest)
      | rest => (readMembers? fuel rest).map fun (ms, rest) => (.obj ms, rest)
    | rest => readNumber? false rest

def readItems? : Nat → List Char → Option (List Written × List Char)
  | 0, _ => none
  | fuel + 1, cs => do
    let (v, rest) ← readValue? fuel cs
    match skipBlanks rest with
    | ']' :: rest => return ([v], rest)
    | ',' :: rest =>
      let (vs, rest) ← readItems? fuel rest
      return (v :: vs, rest)
    | _ => none

def readMembers? : Nat → List Char → Option (List (Option String × Written) × List Char)
  | 0, _ => none
  | fuel + 1, cs => do
    let '"' :: rest := skipBlanks cs | none
    let (k, rest) ← readString? rest
    let ':' :: rest := skipBlanks rest | none
    let (v, rest) ← readValue? fuel rest
    match skipBlanks rest with
    | '\x7d' :: rest => return ([(k, v)], rest)
    | ',' :: rest =>
      let (ms, rest) ← readMembers? fuel rest
      return ((k, v) :: ms, rest)
    | _ => none

end

def read? (text : String) : Option Written := do
  let cs := text.toList
  let (v, rest) ← readValue? (cs.length + 1) cs
  if (skipBlanks rest).isEmpty then return v else none

/-- The number that digits denote: an integer if it has 64 bits, else the nearest double. Negative
zero is a double. -/
def wholeNumber (negative : Bool) (n : Nat) : Json :=
  if negative then
    if n = 0 ∨ signedBound 64 < n then .float (Literal.mk true n 0).toFloat else .int (-n)
  else if n < unsignedBound 64 then .int n
  else .float (Literal.mk false n 0).toFloat

def finite? : Json → Option Json
  | .float x => if (Binary.ofFloat x).isFinite then some (.float x) else none
  | v => some v

mutual

/-- The value of a text, if its strings hold characters only and its numbers are finite. Of members
with one key the last one counts. -/
def value? : Written → Option Json
  | .null => some .null
  | .bool b => some (.bool b)
  | .whole negative n => finite? (wholeNumber negative n)
  | .decimal l => finite? (.float l.toFloat)
  | .str s => s.map .str
  | .arr items => (itemValues? items).map .arr
  | .obj members => (memberValues? members).map fun ms => .obj (Json.sortMembers ms)

def itemValues? : List Written → Option (List Json)
  | [] => some []
  | v :: rest => do return (← v.value?) :: (← itemValues? rest)

def memberValues? : List (Option String × Written) → Option (List (String × Json))
  | [] => some []
  | (k, v) :: rest => do return (← k, ← v.value?) :: (← memberValues? rest)

end

end Written

def Json.read? (text : String) : Option Json := (Written.read? text).bind Written.value?

end AsOf
