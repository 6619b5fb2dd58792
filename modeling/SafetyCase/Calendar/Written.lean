import SafetyCase.Calendar
import SafetyCase.Calendar.Fault
import SafetyCase.Decimal.Digits
/-! A written date, alone or with a time of day and a zone. The first fault in reading order counts, but
the ranges of hours and minutes are looked at after both have been read. -/
namespace SafetyCase.Date
open Decimal (isDigit numberOf)

def twoDigits (why : Reason) (a b : Char) : Except Reason Nat :=
  if isDigit a && isDigit b then .ok (numberOf [a, b]) else .error why

/-- One unit per byte of UTF-8: lengths and positions in a written date count bytes. -/
def units (s : String) : List Char :=
  s.toList.flatMap fun c => c :: List.replicate (c.utf8Size - 1) '\x80'

def ofUnits : List Char → Except Reason Date
  | y1 :: y2 :: y3 :: y4 :: s1 :: m1 :: m2 :: s2 :: d1 :: d2 :: _ => do
    let century ← twoDigits .badYear y1 y2
    let year ← twoDigits .badYear y3 y4
    if s1 ≠ '-' then throw .badDateSeparator
    let month ← twoDigits .badMonth m1 m2
    if s2 ≠ '-' then throw .badDateSeparator
    let day ← twoDigits .badDay d1 d2
    let year := 100 * century + year
    if month < 1 || 12 < month then throw .monthRange
    if day < 1 || daysInMonth year month < day then throw .dayRange
    return ⟨year, month, day⟩
  | _ => .error .tooShort

def checkZoneMinutes (hours : Nat) : List Char → Except Reason Unit
  | ':' :: m1 :: m2 :: rest => check m1 m2 rest
  | ':' :: _ => .error .badZoneMinute
  | m1 :: m2 :: rest => check m1 m2 rest
  | _ => .error .badZoneMinute
where
  check (m1 m2 : Char) (rest : List Char) : Except Reason Unit := do
    let minutes ← twoDigits .badZoneMinute m1 m2
    if 60 ≤ minutes then throw .zoneMinuteRange
    if 24 ≤ hours then throw .zoneRange
    if rest ≠ [] then throw .extraCharacters

def checkZoneHours : List Char → Except Reason Unit
  | h1 :: h2 :: rest => do checkZoneMinutes (← twoDigits .badZoneHour h1 h2) rest
  | _ => .error .badZoneHour

def checkZone : List Char → Except Reason Unit
  | [] => .ok ()
  | 'Z' :: rest => if rest = [] then .ok () else .error .extraCharacters
  | 'z' :: rest => if rest = [] then .ok () else .error .extraCharacters
  | '+' :: rest => checkZoneHours rest
  | '-' :: rest => checkZoneHours rest
  | '\u2212' :: _ :: _ :: rest => checkZoneHours rest
  | _ => .error .badZoneSign

def secondsAreZero : List Char → Except Reason (Bool × List Char)
  | ':' :: s1 :: s2 :: rest => do
    let seconds ← twoDigits .badSecond s1 s2
    if 59 < seconds then throw .secondRange
    match rest with
    | point :: more =>
      if point = '.' || point = ',' then
        let fraction := more.takeWhile isDigit
        if fraction = [] then throw .fractionMissing
        return (seconds = 0 && (fraction.take 6).all (· = '0'), more.drop fraction.length)
      else return (seconds = 0, rest)
    | [] => return (seconds = 0, rest)
  | ':' :: _ => .error .badSecond
  | rest => .ok (true, rest)

def timeIsZero : List Char → Except Reason Bool
  | h1 :: h2 :: s :: m1 :: m2 :: rest => do
    let hours ← twoDigits .badHour h1 h2
    if s ≠ ':' then throw .badTimeSeparator
    let minutes ← twoDigits .badMinute m1 m2
    if 23 < hours then throw .hourRange
    if 59 < minutes then throw .minuteRange
    let (zero, rest) ← secondsAreZero rest
    checkZone rest
    return hours = 0 && minutes = 0 && zero
  | _ => .error .tooShort

def isDateTimeSeparator (c : Char) : Bool := c == 'T' || c == 't' || c == ' ' || c == '_'

def ofWritten (us : List Char) : Except Reason (Date × Bool) := do
  let date ← ofUnits us
  match us.drop 10 with
  | [] => return (date, true)
  | separator :: time =>
    if !isDateTimeSeparator separator then throw .badDateTimeSeparator
    return (date, ← timeIsZero time)

end SafetyCase.Date
