import AsOf.Decimal.Literal
import AsOf.Word
import AsOf.Yaml.Event

namespace AsOf.Yaml

inductive Atom where
  | null
  | bool (b : Bool)
  | int (n : Int)
  | float (x : Float)
  | str (s : String)

def isNullWord (s : String) : Bool := ["null", "Null", "NULL", "~"].contains s

def truth? (s : String) : Option Bool :=
  if ["true", "True", "TRUE"].contains s then some true
  else if ["false", "False", "FALSE"].contains s then some false
  else none

def digits? (base : Nat) (cs : List Char) : Option Nat :=
  if !cs.isEmpty && cs.all (fun c => (digitValue? base c).isSome) then some (numeral base cs)
  else none

/-- Whether digits begin with a zero that is not the only one. Such digits are no number. -/
def hasLeadingZero (cs : List Char) : Bool :=
  1 < cs.length && cs.head? = some '0' && cs.all isDigit

/-- The number of digits, in the base that a letter after a zero in front says. -/
def magnitude? : List Char → Option Nat
  | '0' :: 'x' :: rest => digits? 16 rest
  | '0' :: 'o' :: rest => digits? 8 rest
  | '0' :: 'b' :: rest => digits? 2 rest
  | cs => if hasLeadingZero cs then none else digits? 10 cs

def integer? (s : String) : Option (Bool × Nat) :=
  match s.toList with
  | '-' :: rest => (magnitude? rest).map (true, ·)
  | '+' :: rest => (magnitude? rest).map (false, ·)
  | cs => (magnitude? cs).map (false, ·)

/-- What an integer of some size is taken for. -/
inductive Size where
  | fits (n : Int)
  /-- More than 64 bits, but not more than 128: refused. -/
  | refused
  /-- So large that it is only a floating-point number. -/
  | huge

def sizeOf (negative : Bool) (n : Nat) : Size :=
  if negative then
    if n ≤ signedBound 64 then .fits (-n)
    else if n ≤ signedBound 128 then .refused
    else .huge
  else if n < unsignedBound 64 then .fits n
  else if n < unsignedBound 128 then .refused
  else .huge

def exponent? : List Char → Option Int
  | [] => some 0
  | c :: rest =>
    if c = 'e' ∨ c = 'E' then
      match rest with
      | '-' :: ds => (digits? 10 ds).map fun n => -n
      | '+' :: ds => (digits? 10 ds).map fun n => n
      | ds => (digits? 10 ds).map fun n => n
    else none

/-- A decimal literal without sign: digits, at least one, of which some may follow a point, and an
exponent. -/
def decimal? (negative : Bool) (cs : List Char) : Option Literal :=
  let whole := cs.takeWhile isDigit
  let rest := cs.dropWhile isDigit
  let (fraction, rest) := match rest with
    | '.' :: rest => (rest.takeWhile isDigit, rest.dropWhile isDigit)
    | rest => ([], rest)
  if whole.isEmpty && fraction.isEmpty then none
  else (exponent? rest).map fun e => .ofParts negative whole fraction e

/-- The floating-point number of a text. A literal beyond the range of doubles is none. -/
def float? (s : String) : Option Float :=
  if [".inf", ".Inf", ".INF", "+.inf", "+.Inf", "+.INF"].contains s then
    some (Float.ofBits 0x7ff0000000000000)
  else if ["-.inf", "-.Inf", "-.INF"].contains s then some (Float.ofBits 0xfff0000000000000)
  else if [".nan", ".NaN", ".NAN"].contains s then some (Float.ofBits 0x7ff8000000000000)
  else
    let l := match s.toList with
      | '-' :: rest => decimal? true rest
      | '+' :: rest => decimal? false rest
      | cs => decimal? false cs
    (l.map Literal.toFloat).filter fun x => (Binary.ofFloat x).isFinite

/-- Digits, perhaps with a sign, that are no number because of a zero in front. -/
def isPaddedNumber (s : String) : Bool :=
  match s.toList with
  | '-' :: rest | '+' :: rest => hasLeadingZero rest
  | cs => hasLeadingZero cs

def numberOrText (s : String) : Atom :=
  if isPaddedNumber s then .str s
  else match float? s with
    | some x => .float x
    | none => .str s

/-- The value of a plain scalar without a tag; `none` if it is refused. -/
def plainAtom? (s : String) : Option Atom :=
  if s = "" || isNullWord s then some .null
  else match truth? s with
    | some b => some (.bool b)
    | none =>
      match integer? s with
      | some (negative, n) =>
        match sizeOf negative n with
        | .fits n => some (.int n)
        | .refused => none
        | .huge => some (numberOrText s)
      | none => some (numberOrText s)

/-- The value of a scalar with a tag of the core schema; a scalar with another tag is a string. -/
def taggedAtom? (tag s : String) : Option Atom :=
  if tag = "tag:yaml.org,2002:bool" then (truth? s).map .bool
  else if tag = "tag:yaml.org,2002:int" then
    match integer? s with
    | some (negative, n) =>
      match sizeOf negative n with
      | .fits n => some (.int n)
      | _ => none
    | none => none
  else if tag = "tag:yaml.org,2002:float" then (float? s).map .float
  else if tag = "tag:yaml.org,2002:null" then if isNullWord s then some .null else none
  else some (.str s)

def atom? (tag : Option String) (s : String) (style : ScalarStyle) : Option Atom :=
  match tag with
  | some t => taggedAtom? t s
  | none =>
    match style with
    | .plain => plainAtom? s
    | .quoted => some (.str s)

end AsOf.Yaml
