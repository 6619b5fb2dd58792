/-! Document kinds, entity types, and the shape of each kind: which types its two levels, its controls
and its actions are, and which types hang below which. A type that a kind does not use has no place in
its shape. -/
namespace SafetyCase

inductive Kind where
  | riskAssessment | jobHazardAnalysis | incident
  deriving DecidableEq

namespace Kind

def all : List Kind := [riskAssessment, jobHazardAnalysis, incident]

def name : Kind → String
  | riskAssessment => "risk_assessment"
  | jobHazardAnalysis => "job_hazard_analysis"
  | incident => "incident"

def ofName? (s : String) : Option Kind := all.find? (·.name = s)

end Kind

inductive EntityType where
  | step | hazard | control | action | timelineEvent | cause
  deriving DecidableEq

namespace EntityType

def all : List EntityType := [step, hazard, control, action, timelineEvent, cause]

theorem memAll (t : EntityType) : t ∈ all := by cases t <;> decide

def name : EntityType → String
  | step => "step"
  | hazard => "hazard"
  | control => "control"
  | action => "action"
  | timelineEvent => "timeline_event"
  | cause => "cause"

def plural : EntityType → String
  | step => "steps"
  | hazard => "hazards"
  | control => "controls"
  | action => "actions"
  | timelineEvent => "timeline_events"
  | cause => "causes"

def ofName? (s : String) : Option EntityType := all.find? (·.name = s)

def parentKey : EntityType → Option String
  | step => none
  | hazard => some "step_id"
  | control => some "hazard_id"
  | action => some "parent_id"
  | timelineEvent => none
  | cause => some "timeline_event_id"

def isTop (t : EntityType) : Bool := t.parentKey.isNone

end EntityType

inductive DeletePolicy where
  | cascade | restrict
  deriving DecidableEq

namespace Kind

def topLevel : Kind → EntityType
  | riskAssessment => .step
  | jobHazardAnalysis => .step
  | incident => .timelineEvent

def secondLevel : Kind → EntityType
  | riskAssessment => .hazard
  | jobHazardAnalysis => .hazard
  | incident => .cause

def control? : Kind → Option EntityType
  | riskAssessment => some .control
  | jobHazardAnalysis => some .control
  | incident => none

def action? : Kind → Option EntityType
  | riskAssessment => some .action
  | jobHazardAnalysis => none
  | incident => some .action

def supportsAssessment : Kind → Bool
  | riskAssessment => true
  | _ => false

def topLevelDelete : Kind → DeletePolicy
  | riskAssessment => .restrict
  | _ => .cascade

def children : Kind → EntityType → List EntityType
  | riskAssessment, .step => [.hazard]
  | riskAssessment, .hazard => [.control, .action]
  | jobHazardAnalysis, .step => [.hazard]
  | jobHazardAnalysis, .hazard => [.control]
  | incident, .timelineEvent => [.cause]
  | incident, .cause => [.action]
  | _, _ => []

def parentType? (k : Kind) (t : EntityType) : Option EntityType :=
  EntityType.all.find? fun p => (k.children p).contains t

def height : Kind → EntityType → Nat
  | riskAssessment, .step => 2
  | riskAssessment, .hazard => 1
  | jobHazardAnalysis, .step => 2
  | jobHazardAnalysis, .hazard => 1
  | incident, .timelineEvent => 2
  | incident, .cause => 1
  | _, _ => 0

theorem heightChild {k : Kind} {t c : EntityType} (h : c ∈ k.children t) : k.height c < k.height t := by
  revert h
  cases k <;> cases t <;> cases c <;> decide

theorem childrenAtHeightZero {k : Kind} {t : EntityType} (h : k.height t = 0) : k.children t = [] := by
  revert h
  cases k <;> cases t <;> decide

theorem parentTypeIff {k : Kind} {t p : EntityType} :
    k.parentType? t = some p ↔ t ∈ k.children p := by
  cases k <;> cases t <;> cases p <;> decide

theorem childNotTop {k : Kind} {t c : EntityType} (h : c ∈ k.children t) : c.isTop = false := by
  revert h
  cases k <;> cases t <;> cases c <;> decide

end Kind
end SafetyCase
