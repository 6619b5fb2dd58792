/-! Binary floating-point numbers with a 53-bit significand, as exact integers: a number is
`mantissa * 2 ^ exponent` with a sign. Reading a decimal rounds to nearest, ties to even, down to the
least exponent. A decimal beyond the largest finite number has no reading. -/
namespace SafetyCase.Decimal

structure Binary where
  negative : Bool
  mantissa : Nat
  exponent : Int
  deriving DecidableEq

namespace Binary

def leastExponent : Int := -1074
def greatestExponent : Int := 971

def zero (negative : Bool) : Binary := ⟨negative, 0, 0⟩

def significandBound : Nat := 0x20000000000000

def largest (negative : Bool) : Binary := ⟨negative, significandBound - 1, greatestExponent⟩

def fraction (x : Binary) : Nat × Nat :=
  if 0 ≤ x.exponent then (x.mantissa <<< x.exponent.toNat, 1)
  else (x.mantissa, 1 <<< (-x.exponent).toNat)

def roundDiv (num den : Nat) : Nat :=
  let q := num / den
  let r := num % den
  if 2 * r < den then q
  else if 2 * r = den then q + q % 2
  else q + 1

def scaled (num den : Nat) (e : Int) : Nat × Nat :=
  if 0 ≤ e then (num, den <<< e.toNat) else (num <<< (-e).toNat, den)

def fittingExponent (num den : Nat) : Int :=
  let guess : Int := (Nat.log2 num : Int) - Nat.log2 den - 53
  let (n, d) := scaled num den guess
  max leastExponent (if n / d < significandBound then guess else guess + 1)

def ofFraction (negative : Bool) (num den : Nat) : Option Binary :=
  if num = 0 then some (zero negative)
  else
    let e := fittingExponent num den
    let (n, d) := scaled num den e
    let m := roundDiv n d
    let (m, e) := if m = significandBound then (significandBound / 2, e + 1) else (m, e)
    if m = 0 then some (zero negative)
    else if greatestExponent < e then none
    else some ⟨negative, m, e⟩

def ofDecimal (negative : Bool) (digits : Nat) (power : Int) : Option Binary :=
  if digits = 0 then some (zero negative)
  else
    let bits := Nat.log2 digits
    if 400 < (bits * 3 / 10 : Nat) + power then none
    else if (bits / 3 + 1 : Nat) + power < -400 then some (zero negative)
    else if 0 ≤ power then ofFraction negative (digits * Nat.pow 10 power.toNat) 1
    else ofFraction negative digits (Nat.pow 10 (-power).toNat)

def toInt? (x : Binary) : Option Int :=
  let (n, d) := x.fraction
  if n % d = 0 then some (if x.negative then -(n / d : Nat) else (n / d : Nat)) else none

def floor (x : Binary) : Int :=
  let (n, d) := x.fraction
  if x.negative then -((n + d - 1) / d : Nat) else (n / d : Nat)

def nearest (negative : Bool) (num den : Nat) : Binary :=
  (ofFraction negative num den).getD (largest negative)

def thousandth (x : Binary) : Binary :=
  let (n, d) := x.fraction
  nearest x.negative n (1000 * d)

/-- How many millionths `num / den` has. The fraction and its millionfold are rounded to binary numbers,
and that to an integer, halves upward. -/
def millionths (num den : Nat) : Nat :=
  let (n, d) := (nearest false num den).fraction
  let (n, d) := (nearest false (n * 1000000) d).fraction
  (2 * n + d) / (2 * d)

def millionthsBehindPoint (x : Binary) : Nat :=
  let (n, d) := x.fraction
  millionths (n % d) d

def millionthsAboveFloor (x : Binary) : Nat :=
  let (n, d) := x.fraction
  millionths (if x.negative then (d - n % d) % d else n % d) d

example : ofDecimal false 1 (-1) = some ⟨false, 7205759403792794, -56⟩ := by decide
example : (ofDecimal false 1 17).bind toInt? = some 100000000000000000 := by decide
example : ofDecimal false 5 (-324) = some ⟨false, 1, -1074⟩ := by decide +kernel
example : (ofDecimal true 5 (-7)).map floor = some (-1) := by decide +kernel
example : (ofDecimal true 5 (-7)).map millionthsBehindPoint = some 1 := by decide +kernel
example : (ofDecimal true 5 (-7)).map millionthsAboveFloor = some 1000000 := by decide +kernel
example : ofDecimal false 2 308 = none := by decide +kernel

end Binary
end SafetyCase.Decimal
