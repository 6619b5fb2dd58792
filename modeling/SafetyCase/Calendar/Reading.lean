import SafetyCase.Calendar.Count
import SafetyCase.Calendar.Written
import SafetyCase.Json
/-! Reading a date leniently: a calendar date, a date with a time of zero, or a count of seconds since
1970 that falls on midnight. A count above twenty thousand million is taken as milliseconds. What lies
below a second is counted in rounded millionths. -/
namespace SafetyCase.Date
open Decimal (Binary)

def accept (date : Date) (midnight : Bool) : Except Fault Date :=
  if !midnight then .error .inexact
  else if date.year = 0 then .error .yearZero
  else .ok date

def ofSeconds (whole : Int) (millionths : Nat) : Except Fault Date :=
  let seconds := whole + (millionths / 1000000 : Nat)
  if seconds < -62167219200 then .error (.unreadable .tooEarly)
  else if 253402300799 < seconds then .error (.unreadable .tooLate)
  else accept (ofDays (seconds.fdiv 86400)) (seconds.fmod 86400 = 0 && millionths % 1000000 = 0)

def greatestSeconds : Nat := 20000000000

def ofCount (count : Int) (millionths : Nat) : Except Fault Date :=
  if count.natAbs ≤ greatestSeconds then ofSeconds count millionths
  else ofSeconds (count.fdiv 1000) (millionths + (count.fmod 1000).toNat * 1000)

def inSeconds (x : Binary) : Bool :=
  let (n, d) := x.fraction
  n ≤ greatestSeconds * d

/-- A written integer of milliseconds drops what is below a second; a number with a point is divided
and rounded. -/
def ofWrittenCount : Count → Except Fault Date
  | .whole n => ofSeconds (if n.natAbs ≤ greatestSeconds then n else n.fdiv 1000) 0
  | .pointed negative digits power =>
    match Binary.ofDecimal negative digits power with
    | some x =>
      let seconds := if inSeconds x then x else x.thousandth
      ofSeconds seconds.floor seconds.millionthsAboveFloor
    | none => .error (.unreadable (if negative then .tooEarly else .tooLate))

def ofText (s : String) : Except Fault Date :=
  let us := units s
  match ofWritten us with
  | .ok (date, midnight) => accept date midnight
  | .error why =>
    match Count.ofChars? us with
    | some count => ofWrittenCount count
    | none => .error (.unreadable why)

/-- Integers beyond the floating-point range count as no date at all. -/
def ofJson : Json → Except Fault Date
  | .text s => ofText s
  | .int n => if (Binary.ofFraction false n.natAbs 1).isSome then ofCount n 0 else .error .notDate
  | .float x => ofCount x.floor x.millionthsBehindPoint
  | _ => .error .notDate

example : (ofText "86400000001").toOption = some ⟨1972, 9, 27⟩ := by decide +kernel
example : (ofJson (.int 86400000001)).toOption = none := by decide +kernel

end SafetyCase.Date
