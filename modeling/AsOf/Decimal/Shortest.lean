import AsOf.Decimal.Binary

namespace AsOf

/-- The number `coefficient * 10 ^ exponent`. -/
structure Decimal where
  coefficient : Nat
  exponent : Int
  deriving DecidableEq

namespace Decimal

def digits (n : Nat) : List Char :=
  if n < 10 then [Char.ofNat (48 + n)] else digits (n / 10) ++ [Char.ofNat (48 + n % 10)]
termination_by n

def strip (d : Decimal) : Decimal :=
  if h : d.coefficient ≠ 0 ∧ d.coefficient % 10 = 0 then
    strip ⟨d.coefficient / 10, d.exponent + 1⟩
  else d
termination_by d.coefficient
decreasing_by
  have := h.1
  show d.coefficient / 10 < d.coefficient
  omega

/-- A point of the line, with the reals that round to it: all those from `low` to `high`, each
counted in units of `2 ^ unit`, with or without the ends. -/
structure Interval where
  low : Nat
  point : Nat
  high : Nat
  unit : Int
  closed : Bool

/-- The reals that round to the double `mantissa * 2 ^ exponent`. Below a power of two doubles lie
twice as close. The ends round to an even mantissa. -/
def Interval.ofBinary (mantissa : Nat) (exponent : Int) : Interval where
  low := 4 * mantissa - (if mantissa = Binary.fractions ∧ -1074 < exponent then 1 else 2)
  point := 4 * mantissa
  high := 4 * mantissa + 2
  unit := exponent - 2
  closed := mantissa % 2 = 0

/-- The factors by which a coefficient on the grid of `10 ^ e`, and a number of units, become
comparable whole numbers. -/
def Interval.scales (c : Interval) (e : Int) : Nat × Nat :=
  (Nat.pow 10 e.toNat * Nat.pow 2 (-c.unit).toNat, Nat.pow 10 (-e).toNat * Nat.pow 2 c.unit.toNat)

def Interval.covers (c : Interval) (d : Nat) (e : Int) : Bool :=
  let (a, b) := c.scales e
  if c.closed then c.low * b ≤ d * a && d * a ≤ c.high * b
  else c.low * b < d * a && d * a < c.high * b

def Interval.reaches (c : Interval) (e : Int) : Bool :=
  let (a, b) := c.scales e
  a ≤ c.point * b

/-- The exponent of the greatest power of ten that the point of an interval reaches: estimated from
the number of bits, then put right. -/
def Interval.magnitude (c : Interval) : Int :=
  let guess := (((c.point.log2 : Int) + c.unit) * 30103).fdiv 100000
  if c.reaches (guess + 1) then guess + 1
  else if c.reaches guess then guess
  else guess - 1

/-- The number on the grid of `10 ^ e` that is in an interval and closest to its point, if there is
one; of two that are equally close, the even one. -/
def Interval.onGrid? (c : Interval) (e : Int) : Option Nat :=
  let (a, b) := c.scales e
  let d := c.point * b / a
  let below := c.point * b - d * a
  let above := (d + 1) * a - c.point * b
  match c.covers d e, c.covers (d + 1) e with
  | true, true =>
    if below < above then some d
    else if above < below then some (d + 1)
    else some (d + d % 2)
  | true, false => some d
  | false, true => some (d + 1)
  | false, false => none

/-- Tries the grids on which a number of the magnitude has `n`, `n + 1`, … digits. -/
def Interval.search (c : Interval) (magnitude : Int) (n : Nat) : Nat → Decimal
  | 0 => ⟨0, 0⟩
  | tries + 1 =>
    let e := magnitude + 1 - n
    match c.onGrid? e with
    | some d => ⟨d, e⟩
    | none => c.search magnitude (n + 1) tries

/-- The shortest decimal that rounds to the positive double `mantissa * 2 ^ exponent`; 17 digits
always suffice. -/
def shortest (mantissa : Nat) (exponent : Int) : Decimal :=
  let c := Interval.ofBinary mantissa exponent
  (c.search c.magnitude 1 17).strip

end Decimal

/-- Which numbers are written without an exponent: those whose first digit counts `10 ^ e` with `e`
between these bounds. -/
structure DecimalStyle where
  least : Int
  greatest : Int

namespace Decimal

def pointed : List Char → List Char
  | [] => []
  | [d] => [d]
  | d :: rest => d :: '.' :: rest

def signed (n : Int) : List Char := (if n < 0 then '-' else '+') :: digits n.natAbs

/-- Writes a positive number: positionally with at least one digit on either side of the point, or
with one digit before the point and an exponent. -/
def write (style : DecimalStyle) (d : Decimal) : List Char :=
  let ds := digits d.coefficient
  let e := d.exponent + ds.length - 1
  if e < style.least ∨ style.greatest < e then pointed ds ++ 'e' :: signed e
  else if 0 ≤ d.exponent then ds ++ List.replicate d.exponent.toNat '0' ++ ['.', '0']
  else if 0 ≤ e then ds.take (e.toNat + 1) ++ '.' :: ds.drop (e.toNat + 1)
  else '0' :: '.' :: List.replicate (-e - 1).toNat '0' ++ ds

end Decimal

/-- Writes a finite double by its shortest decimal, zero as `0.0`; `none` for other doubles. -/
def writeFloat? (style : DecimalStyle) (x : Float) : Option (List Char) :=
  match Binary.ofFloat x with
  | .finite negative m e =>
    let magnitude := if m = 0 then ['0', '.', '0'] else (Decimal.shortest m e).write style
    some (if negative then '-' :: magnitude else magnitude)
  | _ => none

end AsOf
