namespace AsOf.Yaml

def isAllowed (c : Char) : Bool :=
  let n := c.toNat
  n = 0x09 || n = 0x0a || n = 0x0d || (0x20 ≤ n && n ≤ 0x7e) || n = 0x85 ||
    (0xa0 ≤ n && n ≤ 0xd7ff) || (0xe000 ≤ n && n ≤ 0xfffd) || 0x10000 ≤ n

def isBreak (c : Char) : Bool :=
  c = '\n' || c = '\r' || c = '\u0085' || c = '\u2028' || c = '\u2029'

def isSpace (c : Char) : Bool := c = ' ' || c = '\t'

/-- Whether a character, if there is one, is neither a blank nor a line break. -/
def isSolid (c : Option Char) : Bool := c.any fun c => !(isSpace c || isBreak c)

def byteOrderMark : Char := '\ufeff'

structure Cursor where
  rest : List Char
  size : Nat
  index : Nat
  line : Nat
  column : Nat

namespace Cursor

def start (text : String) : Cursor :=
  let cs := text.toList
  ⟨cs, cs.length, 0, 0, 0⟩

/-- More steps than it takes to read the rest of the text one character at a time. -/
def steps (c : Cursor) : Nat := c.size + 1

def peek (c : Cursor) : Option Char := c.rest.head?

def peekAt (c : Cursor) (n : Nat) : Option Char := c.rest[n]?

def sees (c : Cursor) (x : Char) : Bool := c.peek = some x

/-- Passes over characters that are no line breaks. -/
def skip (c : Cursor) (n : Nat) : Cursor :=
  { c with rest := c.rest.drop n, index := c.index + n, column := c.column + n }

/-- The longest run of next characters that pass a test, none of them a line break. -/
def run (c : Cursor) (p : Char → Bool) : List Char :=
  c.rest.takeWhile fun x => p x && !isBreak x

def skipRun (c : Cursor) (p : Char → Bool) : Cursor := c.skip (c.run p).length

/-- The beginning of the next line, after a line break of `n` characters. -/
def newLine (c : Cursor) (n : Nat) : Cursor :=
  { c with rest := c.rest.drop n, index := c.index + n, line := c.line + 1, column := 0 }

/-- Passes over a line break, which is read as a line feed or, if it is a separator of lines or
paragraphs, as itself. -/
def lineBreak? (c : Cursor) : Option (Char × Cursor) :=
  match c.rest with
  | '\r' :: '\n' :: _ => some ('\n', c.newLine 2)
  | x :: _ =>
    if isBreak x then some (if x = '\u2028' ∨ x = '\u2029' then x else '\n', c.newLine 1)
    else none
  | [] => none

def skipLineBreak (c : Cursor) : Cursor := (c.lineBreak?.map Prod.snd).getD c

def skipComment (c : Cursor) : Cursor := if c.sees '#' then c.skipRun fun _ => true else c

def atLineEnd (c : Cursor) : Bool := c.peek.all isBreak

/-- Whether a marker of three characters stands alone at the beginning of the line. -/
def seesMarker (c : Cursor) (x : Char) : Bool :=
  c.column = 0 && c.rest.take 3 = [x, x, x] && !isSolid (c.peekAt 3)

def atDocumentMarker (c : Cursor) : Bool := c.seesMarker '-' || c.seesMarker '.'

end Cursor

end AsOf.Yaml
