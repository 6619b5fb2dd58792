import SafetyCase.Intake.Read
/-! The envelope in which commands arrive. Commands stay unread in it, so that a malformed one does not
spoil the others. -/
namespace SafetyCase
open Intake (Checked Complaint)

structure Envelope where
  commands : List Json := []
  summary : Option String := none
  needsClarification : Bool := false
  clarificationPrompt : Option String := none
  rawResponse : Option String := none
  deriving DecidableEq

namespace Envelope

def optionalText (camel snake : String) (fields : List (String × Json)) : Checked (Option String) :=
  Intake.optional ⟨camel, snake⟩ fields none (Intake.nullable Intake.text)

def objects : Json → Checked (List Json) := Intake.list fun j => (Intake.object j).map .object

def ofFields (fields : List (String × Json)) : Checked Envelope :=
  let commands := Intake.optional ⟨"commands", "commands"⟩ fields [] objects
  let summary := optionalText "summary" "summary" fields
  let asks := Intake.optional ⟨"needsClarification", "needs_clarification"⟩ fields false Intake.flag
  let prompt := optionalText "clarificationPrompt" "clarification_prompt" fields
  let raw := optionalText "rawResponse" "raw_response" fields
  let content := Checked.both Prod.mk commands summary
  let clarification := Checked.both Prod.mk asks (Checked.both Prod.mk prompt raw)
  Checked.both (fun c q => ⟨c.1, c.2, q.1, q.2.1, q.2.2⟩) content clarification

def read (wrong : Complaint) : Json → Checked Envelope
  | .object fields => ofFields fields
  | _ => Checked.fail wrong

def toJson (e : Envelope) : Json :=
  .object [("commands", .list e.commands), ("summary", .ofOption .text e.summary),
    ("needs_clarification", .bool e.needsClarification),
    ("clarification_prompt", .ofOption .text e.clarificationPrompt), ("raw_response", .ofOption .text e.rawResponse)]

end Envelope
end SafetyCase
