import SafetyCase.Decimal.Binary
import SafetyCase.Decimal.Digits
/-! A written count of seconds or milliseconds. Without a point it is an integer of at most 63 bits, and no
exponent may follow. With a point it is a binary number: the digits on one side of the point may be
missing, an exponent may follow, and no size is too large. -/
namespace SafetyCase
open Decimal (isDigit numberOf exponentPart)

inductive Count where
  | whole (n : Int)
  | pointed (negative : Bool) (digits : Nat) (power : Int)
  deriving DecidableEq

namespace Count

def greatestWhole : Nat := 0x7fffffffffffffff

def exponent? (cs : List Char) : Option Int :=
  if cs = [] then some 0
  else (exponentPart cs).bind fun (power, length) => if length = cs.length then some power else none

def ofDigits? (negative : Bool) (digits : List Char) : Option Count :=
  if digits = [] || greatestWhole < numberOf digits then none
  else
    let n : Int := numberOf digits
    some (.whole (if negative then -n else n))

def ofPoint? (negative : Bool) (whole rest : List Char) : Option Count :=
  let fraction := rest.takeWhile isDigit
  if whole = [] && fraction = [] then none
  else (exponent? (rest.drop fraction.length)).map fun power =>
    .pointed negative (numberOf (whole ++ fraction)) (power - fraction.length)

def ofChars? (cs : List Char) : Option Count :=
  let negative : Bool := cs.head? = some '-'
  let body := if negative || cs.head? = some '+' then cs.drop 1 else cs
  let whole := body.takeWhile isDigit
  match body.drop whole.length with
  | [] => ofDigits? negative whole
  | '.' :: rest => ofPoint? negative whole rest
  | _ => none

example : ofChars? "-042".toList = some (.whole (-42)) := by decide +kernel
example : ofChars? "+.5E-3".toList = some (.pointed false 5 (-4)) := by decide +kernel
example : ofChars? "7.".toList = some (.pointed false 7 0) := by decide +kernel
example : ofChars? ".".toList = none ∧ ofChars? "1e5".toList = none ∧ ofChars? "1.e".toList = none := by
  decide +kernel
example : ofChars? "9223372036854775808".toList = none := by decide +kernel

end Count
end SafetyCase
