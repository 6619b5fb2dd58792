import SafetyCase.Command.Form
import SafetyCase.Command.Intent
/-! What a command carries: the fields of an edit, a rating, an order, or a question. The intent, the target
and the kind of the document decide which of them is read. -/
namespace SafetyCase
open Intake (Checked)

inductive RatingSlot where
  | baseline | residual
  deriving DecidableEq

namespace RatingSlot

def name : RatingSlot → String
  | baseline => "baseline"
  | residual => "residual"

def all : List RatingSlot := [baseline, residual]

def ofName? (s : String) : Option RatingSlot := all.find? (·.name = s)

def toAttribute : RatingSlot → Attribute
  | baseline => .baseline
  | residual => .residual

def read : Json → Checked RatingSlot
  | .text s =>
    match ofName? (String.ofList (Text.lowerAscii (Text.trim Text.isBlank s.toList))) with
    | some slot => .ok slot
    | none => Checked.fail (.notLiteral (all.map name))
  | _ => Checked.fail (.notLiteral (all.map name))

end RatingSlot

structure Assessment where
  severity : Option Severity := none
  likelihood : Option Likelihood := none
  slot : Option RatingSlot := none
  deriving DecidableEq

namespace Assessment

def severityOf (j : Json) : Checked Severity :=
  match Rating.readSeverity j with
  | .ok s => .ok s
  | .error fault => Checked.fail (.rating fault)

def likelihoodOf (j : Json) : Checked Likelihood :=
  match Rating.readLikelihood j with
  | .ok l => .ok l
  | .error fault => Checked.fail (.rating fault)

def read (fields : List (String × Json)) : Checked Assessment :=
  let severity := Intake.optional ⟨"severity", "severity"⟩ fields none (Intake.nullable severityOf)
  let likelihood := Intake.optional ⟨"likelihood", "likelihood"⟩ fields none (Intake.nullable likelihoodOf)
  let slot := Intake.optional ⟨"assessmentType", "assessment_type"⟩ fields none (Intake.nullable RatingSlot.read)
  Checked.both (fun (a : Assessment) s => { a with slot := s })
    (Checked.both (fun s l => { severity := s, likelihood := l }) severity likelihood) slot

def rates (a : Assessment) : Bool := a.severity.isSome || a.likelihood.isSome

def rating (a : Assessment) : Rating := ⟨a.severity, a.likelihood, none⟩

def changes (a : Assessment) : List (String × Json) :=
  (a.severity.map fun s => ("severity", Json.text s.code)).toList ++
    (a.likelihood.map fun l => ("likelihood", Json.text l.code)).toList ++
    (a.slot.map fun s => ("assessment_type", Json.text s.name)).toList

end Assessment

structure Question where
  prompt : Option String := none
  question : Option String := none
  deriving DecidableEq

namespace Question

def read (fields : List (String × Json)) : Checked Question :=
  Checked.both Question.mk
    (Intake.optional ⟨"clarificationPrompt", "clarification_prompt"⟩ fields none (Intake.nullable Intake.text))
    (Intake.optional ⟨"question", "question"⟩ fields none (Intake.nullable Intake.text))

def asked (q : Question) : Option String :=
  match q.prompt with
  | none => q.question
  | some s => if s = "" then q.question else some s

def changes (q : Question) : List (String × Json) :=
  (q.prompt.map fun s => ("clarification_prompt", Json.text s)).toList ++
    (q.question.map fun s => ("question", Json.text s)).toList

end Question

inductive Payload where
  | fields (type : EntityType) (changes : List (Attribute × Json))
  | assessment (a : Assessment)
  | order (ids : List String)
  | question (q : Question)
  deriving DecidableEq

namespace Payload

def readOrder (fields : List (String × Json)) : Checked (List String) :=
  Intake.required ⟨"orderedIds", "ordered_ids"⟩ fields
    (Intake.filledList fun j => .ok j.plain)

def changes : Payload → List (String × Json)
  | fields _ changes => changes.map fun c => (c.1.name, c.2)
  | assessment a => a.changes
  | order ids => [("ordered_ids", .list (ids.map .text))]
  | question q => q.changes

def asked : Payload → Option String
  | question q => q.asked
  | _ => none

def read (k : Kind) (intent : Intent) (target : Target) (given : List (String × Json)) : Checked (Option Payload) :=
  match intent, target with
  | .clarify, _ => (Question.read given).map fun q => some (question q)
  | .reorder, _ => (readOrder given).map fun ids => some (order ids)
  | _, .assessment => (Assessment.read given).map fun a => some (assessment a)
  | .delete, _ => .ok none
  | _, target =>
    match target.entityType? k with
    | some t => (readForm t.form given).map fun changes => some (fields t changes)
    | none => .ok none

end Payload
end SafetyCase
