import SafetyCase.Document.Kind
/-! What a command wants, and which part of a document it is about. A target stands for the entity type
that the document's kind has in that part. -/
namespace SafetyCase

inductive Intent where
  | add | modify | delete | insert | reorder | clarify
  deriving DecidableEq

namespace Intent

def all : List Intent := [add, modify, delete, insert, reorder, clarify]

def name : Intent → String
  | add => "ADD"
  | modify => "MODIFY"
  | delete => "DELETE"
  | insert => "INSERT"
  | reorder => "REORDER"
  | clarify => "CLARIFY"

def names : List String := all.map name

def ofWord? : String → Option Intent
  | "UPDATE" => some modify
  | "REMOVE" => some delete
  | word => all.find? (·.name = word)

theorem wordRead (i : Intent) : ofWord? i.name = some i := by cases i <;> decide

def needsData : Intent → Bool
  | add | modify | insert => true
  | _ => false

def needsLocation : Intent → Bool
  | modify | delete | reorder => true
  | _ => false

def needsReference : Intent → Bool
  | modify | delete => true
  | _ => false

def canAssess : Intent → Bool
  | add | modify | delete => true
  | _ => false

end Intent

inductive Target where
  | step | hazard | control | action | assessment | multiple
  deriving DecidableEq

namespace Target

def all : List Target := [step, hazard, control, action, assessment, multiple]

def name : Target → String
  | step => "STEP"
  | hazard => "HAZARD"
  | control => "CONTROL"
  | action => "ACTION"
  | assessment => "ASSESSMENT"
  | multiple => "MULTIPLE"

def names : List String := all.map name

def ofName? (s : String) : Option Target := all.find? (·.name = s)

theorem nameRead (t : Target) : ofName? t.name = some t := by cases t <;> decide

def entityType? (k : Kind) : Target → Option EntityType
  | step => some k.topLevel
  | hazard => some k.secondLevel
  | control => k.control?
  | action => k.action?
  | assessment => some k.secondLevel
  | multiple => none

def supported (k : Kind) : Target → Bool
  | control => k.control?.isSome
  | action => k.action?.isSome
  | assessment => k.supportsAssessment
  | _ => true

end Target
end SafetyCase
