import SafetyCase.Command.Intent
import SafetyCase.Intake.Issue
/-! Why a command is not accepted. -/
namespace SafetyCase

inductive Refusal where
  | malformed (complaint : Intake.Complaint)
  | unsupported (target : Target) (kind : Kind)
  | notAssessable (intent : Intent)
  | withoutData (intent : Intent)
  | withoutLocation (intent : Intent)
  | withoutReference (intent : Intent)
  | invalidData (target : Target) (issue : Intake.Issue)
  | noChange
  | noRating
  | noCommands
  | noValidCommand
  deriving DecidableEq

def Refusal.message : Refusal → String
  | malformed complaint => "Malformed command: " ++ complaint.message
  | unsupported target kind => target.name ++ " commands are not supported for " ++ kind.name ++ " documents."
  | notAssessable intent => intent.name ++ " is not valid for ASSESSMENT."
  | withoutData intent => intent.name ++ " requires data."
  | withoutLocation intent => intent.name ++ " requires a location."
  | withoutReference intent => intent.name ++ " location carries no reference."
  | invalidData target issue =>
    let place := if issue.path = [] then "data" else ".".intercalate (issue.path.map (·.text))
    "Invalid " ++ target.name ++ " data (" ++ place ++ "): " ++ issue.complaint.message
  | noChange => "MODIFY data sets no recognised field."
  | noRating => "ASSESSMENT requires a severity or likelihood."
  | noCommands => "MULTIPLE requires data.commands."
  | noValidCommand => "MULTIPLE contains no valid sub-command."

end SafetyCase
