namespace AsOf

inductive Binary where
  | nan
  | infinite (negative : Bool)
  /-- The number `mantissa * 2 ^ exponent`, or its opposite. -/
  | finite (negative : Bool) (mantissa : Nat) (exponent : Int)
  deriving DecidableEq

/-- How many doubles there are from one power of two to the next: fractions have 52 bits. -/
def Binary.fractions : Nat := 0x10000000000000

def Binary.ofFloat (x : Float) : Binary :=
  let bits := x.toBits.toNat
  let negative : Bool := 0x8000000000000000 ≤ bits
  let biased : Nat := bits / Binary.fractions % 2048
  let fraction := bits % Binary.fractions
  if biased = 2047 then if fraction = 0 then .infinite negative else .nan
  else if biased = 0 then .finite negative fraction (-1074)
  else .finite negative (fraction + Binary.fractions) ((biased : Int) - 1075)

def Binary.perUnit : Int := Nat.pow 2 1074

/-- A count that exceeds that of every finite double and of every 64-bit integer. -/
def Binary.infiniteCount : Int := Nat.pow 2 2200

/-- A double counted in the smallest positive one. An infinity counts more than any finite double
and any 64-bit integer. -/
def Binary.count? : Binary → Option Int
  | .nan => none
  | .infinite negative => some (if negative then -infiniteCount else infiniteCount)
  | .finite negative mantissa exponent =>
    let n : Int := mantissa * Nat.pow 2 (exponent + 1074).toNat
    some (if negative then -n else n)

/-- The whole number nearest to a quotient; of two, the even one. -/
def roundHalfEven (num den : Nat) : Nat :=
  let q := num / den
  let r := num % den
  if 2 * r < den then q
  else if den < 2 * r then q + 1
  else q + q % 2

/-- The exponent of the double nearest to a positive quotient, before rounding: the mantissa gets
53 bits, or fewer where the smallest positive double is reached. -/
def roundingExponent (num den : Nat) : Int :=
  let e : Int := (num.log2 : Int) - den.log2 - 53
  let e := if den * Nat.pow 2 (e + 53).toNat ≤ num * Nat.pow 2 (-(e + 53)).toNat then e + 1 else e
  max e (-1074)

/-- The double nearest to a quotient of whole numbers; of two, the one with the even mantissa. -/
def nearestFloat (num den : Nat) : Float :=
  if num = 0 then 0
  else
    let e := roundingExponent num den
    let q := roundHalfEven (num * Nat.pow 2 (-e).toNat) (den * Nat.pow 2 e.toNat)
    let (q, e) := if q = 2 * Binary.fractions then (Binary.fractions, e + 1) else (q, e)
    if 971 < e then Float.ofBits 0x7ff0000000000000
    else if q < Binary.fractions then Float.ofBits (.ofNat q)
    else Float.ofBits (.ofNat ((e + 1075).toNat * Binary.fractions + (q - Binary.fractions)))

def Binary.isFinite : Binary → Bool
  | .finite .. => true
  | _ => false

end AsOf
