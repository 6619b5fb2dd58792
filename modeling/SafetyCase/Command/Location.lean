import SafetyCase.Intake.Read
/-! Where in a document a command applies: identifiers of entities, as the texts that were given, and
positions within their groups. -/
namespace SafetyCase
open Intake (Complaint Checked Key)

structure Location where
  stepId : Option String := none
  stepIndex : Option Nat := none
  hazardId : Option String := none
  hazardIndex : Option Nat := none
  actionId : Option String := none
  controlId : Option String := none
  insertAfter : Option String := none
  deriving DecidableEq

namespace Location

def hasStep (l : Location) : Bool := l.stepId.isSome || l.stepIndex.isSome

def hasHazard (l : Location) : Bool := l.hazardId.isSome || l.hazardIndex.isSome

def hasReference (l : Location) : Bool :=
  l.hasStep || l.hasHazard || l.actionId.isSome || l.controlId.isSome || l.insertAfter.isSome

def reference? : Json → Option String
  | .null => none
  | .text s => if s = "" then none else some s
  | j => some j.literal

def reference (j : Json) : Checked (Option String) := .ok (reference? j)

def index : Json → Checked (Option Nat) := Intake.nullable Intake.nat

def read (wrong : Complaint) : Json → Checked Location
  | .object fields =>
    let ref camel snake := Intake.optional ⟨camel, snake⟩ fields none reference
    let idx camel snake := Intake.optional ⟨camel, snake⟩ fields none index
    let step := Checked.both (fun i n => ({ stepId := i, stepIndex := n } : Location))
      (ref "stepId" "step_id") (idx "stepIndex" "step_index")
    let hazard := Checked.both (fun l i => { l with hazardId := i }) step (ref "hazardId" "hazard_id")
    let hazard := Checked.both (fun l n => { l with hazardIndex := n }) hazard (idx "hazardIndex" "hazard_index")
    let action := Checked.both (fun l i => { l with actionId := i }) hazard (ref "actionId" "action_id")
    let control := Checked.both (fun l i => { l with controlId := i }) action (ref "controlId" "control_id")
    Checked.both (fun l i => { l with insertAfter := i }) control (ref "insertAfter" "insert_after")
  | _ => Checked.fail wrong

end Location
end SafetyCase
