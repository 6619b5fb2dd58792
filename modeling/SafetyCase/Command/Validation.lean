import SafetyCase.Command.Basic
import SafetyCase.Command.Refusal
/-! Checking commands from outside. A command is read as a draft, checked against the kind of the document,
and then given its payload; the first thing wrong is the reason for refusing it. A batch keeps the
commands that are accepted, in order, up to a limit. -/
namespace SafetyCase
open Intake (Checked Issue Complaint)

structure Draft where
  intent : Intent
  target : Target
  location : Option Location
  data : Option (List (String × Json))
  explanation : String

namespace Draft

def readExplanation : Json → Checked String
  | .null => .ok ""
  | j => Intake.text j

def ofFields (fields : List (String × Json)) : Checked Draft :=
  let intent := Intake.required ⟨"intent", "intent"⟩ fields fun j =>
    Intake.member Intent.names Intent.ofWord? (Intake.asKeyword j)
  let target := Intake.required ⟨"target", "target"⟩ fields fun j =>
    Intake.member Target.names Target.ofName? (Intake.asKeyword j)
  let location := Intake.optional ⟨"location", "location"⟩ fields none
    (Intake.nullable (Location.read (.notRecord "Location")))
  let data := Intake.optional ⟨"data", "data"⟩ fields none (Intake.nullable Intake.object)
  let explanation := Intake.optional ⟨"explanation", "explanation"⟩ fields "" readExplanation
  let aim := Checked.both Prod.mk intent target
  let content := Checked.both Prod.mk location (Checked.both Prod.mk data explanation)
  Checked.both (fun a c => ⟨a.1, a.2, c.1, c.2.1, c.2.2⟩) aim content

def read : Json → Checked Draft
  | .object fields => ofFields fields
  | _ => Checked.fail (.notRecord "Command")

def given (d : Draft) : List (String × Json) := d.data.getD []

def place (d : Draft) : Location := d.location.getD {}

def obstacle? (k : Kind) (d : Draft) : Option Refusal :=
  if !d.target.supported k then some (.unsupported d.target k)
  else if d.target = .assessment && !d.intent.canAssess then some (.notAssessable d.intent)
  else if d.intent.needsData && d.data.isNone then some (.withoutData d.intent)
  else if d.intent.needsLocation && d.location.isNone then some (.withoutLocation d.intent)
  else if d.intent.needsReference && !d.place.hasReference then some (.withoutReference d.intent)
  else none

def shortfall? (d : Draft) (payload : Option Payload) : Option Refusal :=
  if d.intent = .modify && (payload.map (·.changes)).getD [] = [] then some .noChange
  else match d.target, d.intent, payload with
    | .assessment, .delete, _ => none
    | .assessment, _, some (.assessment a) => if a.rates then none else some .noRating
    | .assessment, _, _ => some .noRating
    | _, _, _ => none

def edit (d : Draft) (payload : Option Payload) : Edit :=
  ⟨d.intent, d.target, d.place, payload, d.explanation⟩

/-- A question never fails: data that cannot be read asks nothing. -/
def question (d : Draft) : Edit :=
  match Question.read d.given with
  | .ok q => d.edit (some (.question q))
  | .error _ => d.edit (some (.question {}))

def firstIssue : List Issue → Issue
  | i :: _ => i
  | [] => ⟨[], .missing⟩

def toEdit (k : Kind) (d : Draft) : Except Refusal Edit :=
  match d.obstacle? k with
  | some refusal => .error refusal
  | none =>
    match Payload.read k d.intent d.target d.given with
    | .error issues => .error (.invalidData d.target (firstIssue issues))
    | .ok payload =>
      match d.shortfall? payload with
      | some refusal => .error refusal
      | none => .ok (d.edit payload)

end Draft

def readDraft (raw : Json) : Except Refusal Draft :=
  match Draft.read raw with
  | .ok d => .ok d
  | .error issues => .error (.malformed (Draft.firstIssue issues).complaint)

def part? (k : Kind) (raw : Json) : Option Edit :=
  match readDraft raw with
  | .error _ => none
  | .ok d =>
    if d.intent = .clarify || d.target = .multiple then none
    else match d.toEdit k with
      | .ok e => some e
      | .error _ => none

def Draft.compound (k : Kind) (d : Draft) : Except Refusal Command :=
  match Intake.required ⟨"commands", "commands"⟩ d.given Intake.filledObjects with
  | .error _ => .error .noCommands
  | .ok raws =>
    match raws.filterMap (part? k) with
    | [] => .error .noValidCommand
    | parts => .ok { d.edit none with parts }

def validate (k : Kind) (raw : Json) : Except Refusal Command :=
  match readDraft raw with
  | .error refusal => .error refusal
  | .ok d =>
    if d.intent = .clarify then .ok (.single d.question)
    else if d.target = .multiple then d.compound k
    else match d.toEdit k with
      | .ok e => .ok (.single e)
      | .error refusal => .error refusal

inductive RejectionReason where
  | refused (refusal : Refusal)
  | overLimit
  deriving DecidableEq

def RejectionReason.message : RejectionReason → String
  | refused refusal => refusal.message
  | overLimit => "Batch exceeds the maximum number of commands."

structure Rejection where
  index : Nat
  reason : RejectionReason
  deriving DecidableEq

structure BatchCheck where
  accepted : List Command
  rejected : List Rejection
  deriving DecidableEq

namespace BatchCheck

def isFull (limit : Option Int) (count : Nat) : Bool :=
  match limit with
  | none => false
  | some m => m ≤ count

def scan (k : Kind) (limit : Option Int) : Nat → Nat → List Json → BatchCheck
  | _, _, [] => ⟨[], []⟩
  | index, count, raw :: rest =>
    if isFull limit count then
      let others := scan k limit (index + 1) count rest
      { others with rejected := ⟨index, .overLimit⟩ :: others.rejected }
    else match validate k raw with
      | .ok c =>
        let others := scan k limit (index + 1) (count + 1) rest
        { others with accepted := c :: others.accepted }
      | .error refusal =>
        let others := scan k limit (index + 1) count rest
        { others with rejected := ⟨index, .refused refusal⟩ :: others.rejected }

end BatchCheck

def validateBatch (k : Kind) (limit : Option Int) (raws : List Json) : BatchCheck := BatchCheck.scan k limit 0 0 raws

end SafetyCase
