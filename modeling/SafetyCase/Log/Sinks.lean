import SafetyCase.Json.Literal
import SafetyCase.Log.Level
/-! Where messages go: the console, and with a directory a main file and a file of errors. Each takes the
messages from a rank on, in order. -/
namespace SafetyCase

structure LogRecord where
  level : Level
  extra : List (String × Json) := []
  message : String

structure LogSetup where
  threshold : Level
  directory : Option String := none
  serialize : Bool := false

inductive LogFault where
  | unknownLevel (name : String)
  deriving DecidableEq

def LogFault.message : LogFault → String
  | unknownLevel name => "Level '" ++ name ++ "' does not exist"

def readLevel (name : String) : Except LogFault Level :=
  match Level.ofName? name with
  | some level => .ok level
  | none => .error (.unknownLevel name)

namespace LogRecord

def reaches (r : LogRecord) (threshold : Level) : Bool := threshold.rank ≤ r.level.rank

def shownCase? (r : LogRecord) : Option Json := (r.extra.lookup "case_id").filter (·.truthy)

def extraText (r : LogRecord) : String := (Json.object r.extra).literal

def consoleRow (r : LogRecord) : Json :=
  .list (.text r.level.name :: (r.shownCase?.map fun j => Json.text j.plain).toList ++ [.text r.message])

def textRow (r : LogRecord) : Json := .list [.text r.level.name, .text r.extraText, .text r.message]

def valueRow (r : LogRecord) : Json := .list [.text r.level.name, .object r.extra, .text r.message]

end LogRecord

namespace LogSetup

def directory? (s : LogSetup) : Option String := s.directory.filter (· ≠ "")

def opening (s : LogSetup) : LogRecord :=
  { level := .info
    message := "Logging initialised at " ++ s.threshold.name ++ " (file sink: " ++ (s.directory?).getD "off" ++ ")" }

def run (s : LogSetup) (records : List LogRecord) : List LogRecord := s.opening :: records

def console (s : LogSetup) (records : List LogRecord) : List LogRecord :=
  (s.run records).filter (·.reaches s.threshold)

def main? (s : LogSetup) (records : List LogRecord) : Option (List LogRecord) :=
  s.directory?.map fun _ => (s.run records).filter (·.reaches s.threshold)

def errors? (s : LogSetup) (records : List LogRecord) : Option (List LogRecord) :=
  s.directory?.map fun _ => (s.run records).filter (·.reaches .error)

def mainRow (s : LogSetup) (r : LogRecord) : Json := if s.serialize then r.valueRow else r.textRow

def toJson (s : LogSetup) (records : List LogRecord) : Json :=
  .object [("console", .list ((s.console records).map (·.consoleRow))),
    ("main", .ofOption (fun rs => .list (rs.map s.mainRow)) (s.main? records)),
    ("errors", .ofOption (fun rs => .list (rs.map (·.textRow))) (s.errors? records))]

end LogSetup
end SafetyCase
