import AsOf.Decimal.Binary

namespace AsOf

/-- The number `coefficient * 10 ^ exponent`, or its opposite; zero has a sign too. -/
structure Literal where
  negative : Bool
  coefficient : Nat
  exponent : Int
  deriving DecidableEq

def digitValue? (base : Nat) (c : Char) : Option Nat :=
  let v :=
    if '0' ≤ c ∧ c ≤ '9' then c.toNat - 48
    else if 'a' ≤ c ∧ c ≤ 'z' then c.toNat - 87
    else if 'A' ≤ c ∧ c ≤ 'Z' then c.toNat - 55
    else base
  if v < base then some v else none

/-- The number written by digits in a base; other characters count as zero. -/
def numeral (base : Nat) (cs : List Char) : Nat :=
  cs.foldl (fun n c => n * base + (digitValue? base c).getD 0) 0

def isDigit (c : Char) : Bool := '0' ≤ c && c ≤ '9'

/-- The nearest double to a literal. Beyond the range of doubles the power of ten is not computed:
the answer is an infinity or a zero. -/
def Literal.toFloat (l : Literal) : Float :=
  let size := l.coefficient.log2 * 30103 / 100000
  let x :=
    if l.coefficient = 0 ∨ l.exponent + size < -400 then 0
    else if 400 < l.exponent then Float.ofBits 0x7ff0000000000000
    else nearestFloat (l.coefficient * Nat.pow 10 l.exponent.toNat) (Nat.pow 10 (-l.exponent).toNat)
  if l.negative then -x else x

def Literal.ofParts (negative : Bool) (whole fraction : List Char) (exponent : Int) : Literal :=
  ⟨negative, numeral 10 (whole ++ fraction), exponent - fraction.length⟩

end AsOf
