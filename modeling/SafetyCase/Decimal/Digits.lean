/-! Written digits: their value, and the exponent of ten that may follow them. -/
namespace SafetyCase.Decimal

def isDigit (c : Char) : Bool := '0' ≤ c && c ≤ '9'

def numberOf (digits : List Char) : Nat := digits.foldl (fun n c => 10 * n + (c.toNat - 48)) 0

def exponentPart (cs : List Char) : Option (Int × Nat) :=
  match cs with
  | e :: rest =>
    if e = 'e' || e = 'E' then
      let negative := rest.head? = some '-'
      let signed := negative || rest.head? = some '+'
      let digits := (if signed then rest.drop 1 else rest).takeWhile isDigit
      if digits.isEmpty then none
      else
        let n : Int := numberOf digits
        some (if negative then -n else n, 1 + (if signed then 1 else 0) + digits.length)
    else none
  | [] => none

example : numberOf ['0', '4', '2'] = 42 := by decide
example : exponentPart ['E', '-', '0', '3', 'x'] = some (-3, 4) := by decide
example : exponentPart ['e', '+'] = none := by decide

end SafetyCase.Decimal
