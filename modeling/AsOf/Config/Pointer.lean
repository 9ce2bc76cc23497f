import AsOf.Json.Value

namespace AsOf

/-- The steps from the root of a value to a place in it. -/
abbrev Pointer := List String

namespace Pointer

def escape : List Char → List Char
  | [] => []
  | c :: rest =>
    if c = '~' then '~' :: '0' :: escape rest
    else if c = '/' then '~' :: '1' :: escape rest
    else c :: escape rest

/-- Replaces every escape of one kind, that is a tilde before a given digit. -/
def replaceEscape (digit char : Char) : List Char → List Char
  | [] => []
  | [c] => [c]
  | c :: d :: rest =>
    if c = '~' ∧ d = digit then char :: replaceEscape digit char rest
    else c :: replaceEscape digit char (d :: rest)

/-- The step that a part of the text of a pointer stands for: first every `~1` becomes a slash, then
every `~0` a tilde. A tilde that is no escape stays. -/
def unescape (cs : List Char) : List Char := replaceEscape '0' '~' (replaceEscape '1' '/' cs)

def chars (p : Pointer) : List Char := p.flatMap fun step => '/' :: escape step.toList

def text (p : Pointer) : String := String.ofList p.chars

/-- The index that a step names in a list: digits without a zero in front. -/
def index? (step : String) : Option Nat :=
  match step.toList with
  | ['0'] => some 0
  | '0' :: _ => none
  | [] => none
  | cs => if cs.all isDigit then some (numeral 10 cs) else none

def resolve? (v : Json) : Pointer → Option Json
  | [] => some v
  | step :: rest =>
    match v with
    | .obj members => (Json.lookup step members).bind (resolve? · rest)
    | .arr items => (index? step).bind fun i => items[i]?.bind (resolve? · rest)
    | _ => none

def splitSlashes : List Char → List (List Char)
  | [] => [[]]
  | c :: rest =>
    if c = '/' then [] :: splitSlashes rest
    else match splitSlashes rest with
      | part :: parts => (c :: part) :: parts
      | [] => [[c]]

/-- Reads a pointer from its text, which is empty or begins with a slash. -/
def parse? (text : String) : Option Pointer :=
  match text.toList with
  | [] => some []
  | '/' :: rest => some ((splitSlashes rest).map fun part => String.ofList (unescape part))
  | _ => none

end Pointer

end AsOf
