/-! Risk ratings: severity and likelihood, and the band that the template matrix gives the pair. A
half-filled rating has no band. -/
namespace SafetyCase

inductive Severity where
  | A | B | C | D | E
  deriving DecidableEq

inductive Likelihood where
  | certain | likely | possible | unlikely | remote
  deriving DecidableEq

inductive Band where
  | extreme | high | moderate | minor | negligible
  deriving DecidableEq

namespace Severity

def all : List Severity := [A, B, C, D, E]

def code : Severity → String
  | A => "A" | B => "B" | C => "C" | D => "D" | E => "E"

def ofCode? (s : String) : Option Severity := all.find? (·.code = s)

theorem codeRead (s : Severity) : ofCode? s.code = some s := by cases s <;> decide

end Severity

namespace Likelihood

def all : List Likelihood := [certain, likely, possible, unlikely, remote]

def code : Likelihood → String
  | certain => "1" | likely => "2" | possible => "3" | unlikely => "4" | remote => "5"

def ofCode? (s : String) : Option Likelihood := all.find? (·.code = s)

theorem codeRead (l : Likelihood) : ofCode? l.code = some l := by cases l <;> decide

end Likelihood

namespace Band

def all : List Band := [extreme, high, moderate, minor, negligible]

def code : Band → String
  | extreme => "EXTREME" | high => "HIGH" | moderate => "MODERATE" | minor => "MINOR"
  | negligible => "NEGLIGIBLE"

def ofCode? (s : String) : Option Band := all.find? (·.code = s)

theorem codeRead (b : Band) : ofCode? b.code = some b := by cases b <;> decide

def of : Likelihood → Severity → Band
  | .certain, .A => extreme | .certain, .B => extreme | .certain, .C => high
  | .certain, .D => moderate | .certain, .E => minor
  | .likely, .A => extreme | .likely, .B => high | .likely, .C => moderate
  | .likely, .D => minor | .likely, .E => negligible
  | .possible, .A => high | .possible, .B => moderate | .possible, .C => moderate
  | .possible, .D => minor | .possible, .E => negligible
  | .unlikely, .A => moderate | .unlikely, .B => moderate | .unlikely, .C => minor
  | .unlikely, .D => negligible | .unlikely, .E => negligible
  | .remote, .A => minor | .remote, .B => minor | .remote, .C => negligible
  | .remote, .D => negligible | .remote, .E => negligible

end Band

structure Rating where
  severity : Option Severity := none
  likelihood : Option Likelihood := none
  band : Option Band := none
  deriving DecidableEq

namespace Rating

def bandOf : Option Severity → Option Likelihood → Option Band
  | some s, some l => some (Band.of l s)
  | _, _ => none

def ofAxes (severity : Option Severity) (likelihood : Option Likelihood) : Rating :=
  ⟨severity, likelihood, bandOf severity likelihood⟩

def merge (existing : Option Rating) (severity : Option Severity) (likelihood : Option Likelihood) : Rating :=
  ofAxes (severity <|> existing.bind (·.severity)) (likelihood <|> existing.bind (·.likelihood))

def Consistent (r : Rating) : Prop := r.band = bandOf r.severity r.likelihood

theorem consistentOfAxes (s : Option Severity) (l : Option Likelihood) : (ofAxes s l).Consistent := rfl

theorem consistentMerge (r : Option Rating) (s : Option Severity) (l : Option Likelihood) :
    (merge r s l).Consistent := rfl

end Rating
end SafetyCase
