import SafetyCase.Command.Location
import SafetyCase.Command.Payload
/-! Commands that have been checked: single edits, and compound commands whose parts are edits. Only a
command about several entities has parts. -/
namespace SafetyCase

structure Edit where
  intent : Intent
  target : Target
  location : Location
  payload : Option Payload := none
  explanation : String := ""
  deriving DecidableEq

namespace Edit

def changes (e : Edit) : List (String × Json) := (e.payload.map (·.changes)).getD []

def asked (e : Edit) : Option String := e.payload.bind (·.asked)

end Edit

structure Command extends Edit where
  parts : List Edit := []
  deriving DecidableEq

namespace Command

def single (e : Edit) : Command := { e with parts := [] }

def isClarification (c : Command) : Bool := c.intent = .clarify

end Command
end SafetyCase
