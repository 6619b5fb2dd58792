import SafetyCase.Decimal.Text
/-! Dates of the proleptic Gregorian calendar and moments in whole seconds since 1970, UTC. Days are
counted from 1970-01-01. No other zone and no leap second occurs. -/
namespace SafetyCase

structure Date where
  year : Nat
  month : Nat
  day : Nat
  deriving DecidableEq

namespace Date

def isLeap (year : Nat) : Bool := year % 4 = 0 && (year % 100 ≠ 0 || year % 400 = 0)

def daysInMonth (year month : Nat) : Nat :=
  if month = 2 then (if isLeap year then 29 else 28)
  else if month = 4 || month = 6 || month = 9 || month = 11 then 30
  else 31

def fixed (width n : Nat) : String := String.ofList (Decimal.padded width (Decimal.digitsOf n))

def text (d : Date) : String := fixed 4 d.year ++ "-" ++ fixed 2 d.month ++ "-" ++ fixed 2 d.day

/-- The date of a day number. Years start in March here, so that a leap day ends its year. -/
def ofDays (days : Int) : Date :=
  let shifted := days + 719468
  let era := shifted.fdiv 146097
  let dayOfEra := (shifted - era * 146097).toNat
  let yearOfEra := (dayOfEra - dayOfEra / 1460 + dayOfEra / 36524 - dayOfEra / 146096) / 365
  let dayOfYear := dayOfEra - (365 * yearOfEra + yearOfEra / 4 - yearOfEra / 100)
  let marchMonth := (5 * dayOfYear + 2) / 153
  let day := dayOfYear - (153 * marchMonth + 2) / 5 + 1
  let month := if marchMonth < 10 then marchMonth + 3 else marchMonth - 9
  let year : Int := yearOfEra + era * 400 + (if month ≤ 2 then 1 else 0)
  ⟨year.toNat, month, day⟩

example : ofDays 0 = ⟨1970, 1, 1⟩ := by decide
example : ofDays 19782 = ⟨2024, 2, 29⟩ := by decide
example : ofDays (-719528) = ⟨0, 1, 1⟩ := by decide

end Date

structure Moment where
  seconds : Int
  deriving DecidableEq

namespace Moment

def secondsPerDay : Int := 86400

def text (m : Moment) : String :=
  let inDay := (m.seconds.fmod secondsPerDay).toNat
  (Date.ofDays (m.seconds.fdiv secondsPerDay)).text ++ "T" ++ Date.fixed 2 (inDay / 3600) ++ ":" ++
    Date.fixed 2 (inDay / 60 % 60) ++ ":" ++ Date.fixed 2 (inDay % 60) ++ "+00:00"

def after (m : Moment) (n : Nat) : Moment := ⟨m.seconds + n⟩

instance : LE Moment := ⟨fun a b => a.seconds ≤ b.seconds⟩
instance (a b : Moment) : Decidable (a ≤ b) := inferInstanceAs (Decidable (a.seconds ≤ b.seconds))

end Moment
end SafetyCase
