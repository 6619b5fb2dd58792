import SafetyCase.Decimal.Binary
/-! The fewest decimal digits that read back as a given binary number. For each digit count the two
neighbours of the value on that decimal grid are tried; of two that read back the nearer one wins.
Seventeen digits always suffice. -/
namespace SafetyCase.Decimal

structure Numeral where
  digits : Nat
  power : Int
  deriving DecidableEq

def inUnits (num den : Nat) (power : Int) : Nat × Nat :=
  if 0 ≤ power then (num, den * Nat.pow 10 power.toNat) else (num * Nat.pow 10 (-power).toNat, den)

def leadingPower (num den : Nat) : Int :=
  let guess : Int := ((Nat.log2 num : Int) - Nat.log2 den - 1) * 30103 / 100000 - 1
  let reached (p : Int) : Bool := let (n, d) := inUnits num den p; d ≤ n
  if reached (guess + 2) then guess + 2
  else if reached (guess + 1) then guess + 1
  else guess

def readsBackAt (x : Binary) (power : Int) : Option Numeral :=
  let (num, den) := x.fraction
  let (n, d) := inUnits num den power
  let below := n / d
  let reads (digits : Nat) : Bool := Binary.ofDecimal x.negative digits power = some x
  let lowFirst : Bool := 2 * (n % d) < d || (2 * (n % d) = d && below % 2 = 0)
  let tries := if lowFirst then [below, below + 1] else [below + 1, below]
  (tries.find? reads).map fun digits => ⟨digits, power⟩

def shortest (x : Binary) : Numeral :=
  let (num, den) := x.fraction
  let lead := leadingPower num den
  ((List.range 17).findSome? fun (more : Nat) => readsBackAt x (lead - more)).getD ⟨num, 0⟩

end SafetyCase.Decimal
