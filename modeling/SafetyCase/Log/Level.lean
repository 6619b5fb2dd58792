/-! Levels of importance of a message, each with a name and a rank. -/
namespace SafetyCase

inductive Level where
  | trace | debug | info | success | warning | error | critical
  deriving DecidableEq

namespace Level

def all : List Level := [trace, debug, info, success, warning, error, critical]

def name : Level → String
  | trace => "TRACE"
  | debug => "DEBUG"
  | info => "INFO"
  | success => "SUCCESS"
  | warning => "WARNING"
  | error => "ERROR"
  | critical => "CRITICAL"

def rank : Level → Nat
  | trace => 5
  | debug => 10
  | info => 20
  | success => 25
  | warning => 30
  | error => 40
  | critical => 50

def ofName? (s : String) : Option Level := all.find? (·.name = s)

theorem nameRead (l : Level) : ofName? l.name = some l := by cases l <;> decide

theorem rankInjective {a b : Level} (h : a.rank = b.rank) : a = b := by
  revert h
  cases a <;> cases b <;> decide

end Level
end SafetyCase
