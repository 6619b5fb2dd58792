/-! What stands in the way of a date: a text may be malformed, a number too early or too late, and a
moment may lie within a day. -/
namespace SafetyCase.Date

inductive Reason where
  | tooShort
  | extraCharacters
  | badYear
  | badMonth
  | badDay
  | badDateSeparator
  | monthRange
  | dayRange
  | badDateTimeSeparator
  | badHour
  | badMinute
  | badSecond
  | badTimeSeparator
  | hourRange
  | minuteRange
  | secondRange
  | fractionMissing
  | badZoneSign
  | badZoneHour
  | badZoneMinute
  | zoneMinuteRange
  | zoneRange
  | tooEarly
  | tooLate
  deriving DecidableEq

def Reason.message : Reason → String
  | tooShort => "input is too short"
  | extraCharacters => "unexpected extra characters at the end of the input"
  | badYear => "invalid character in year"
  | badMonth => "invalid character in month"
  | badDay => "invalid character in day"
  | badDateSeparator => "invalid date separator, expected `-`"
  | monthRange => "month value is outside expected range of 1-12"
  | dayRange => "day value is outside expected range"
  | badDateTimeSeparator => "invalid datetime separator, expected `T`, `t`, `_` or space"
  | badHour => "invalid character in hour"
  | badMinute => "invalid character in minute"
  | badSecond => "invalid character in second"
  | badTimeSeparator => "invalid time separator, expected `:`"
  | hourRange => "hour value is outside expected range of 0-23"
  | minuteRange => "minute value is outside expected range of 0-59"
  | secondRange => "second value is outside expected range of 0-59"
  | fractionMissing => "second fraction digits missing after `.`"
  | badZoneSign => "invalid timezone sign"
  | badZoneHour => "invalid timezone hour"
  | badZoneMinute => "invalid timezone minute"
  | zoneMinuteRange => "timezone minute value is outside expected range of 0-59"
  | zoneRange => "timezone offset must be less than 24 hours"
  | tooEarly => "dates before 0000 are not supported as unix timestamps"
  | tooLate => "dates after 9999 are not supported as unix timestamps"

inductive Fault where
  | notDate
  | inexact
  | unreadable (why : Reason)
  | yearZero
  deriving DecidableEq

end SafetyCase.Date
