import SafetyCase.Document.View
import SafetyCase.Editor.Batch
import SafetyCase.Editor.Moves
import SafetyCase.Editor.Undo
/-! The answers of the editor as plain values. -/
namespace SafetyCase

def outcomeFields (e : Edit) (entity : Option Identifier) (message code : Option String) (children : List Json) :
    Json :=
  .object [("intent", .text e.intent.name), ("target", .text e.target.name),
    ("status", .text (if message.isSome then "failed" else "applied")), ("explanation", .text e.explanation),
    ("entity_id", .ofOption Identifier.toJson entity), ("error", .ofOption .text message),
    ("error_type", .ofOption .text code), ("children", .list children)]

def EditOutcome.toJson (o : EditOutcome) : Json :=
  match o.settled with
  | .ok id => outcomeFields o.edit id none none []
  | .error fault => outcomeFields o.edit none (some fault.message) (some fault.code) []

def Outcome.toJson (o : Outcome) : Json :=
  let children := o.parts.map (·.toJson)
  match o.settled with
  | .ok id => outcomeFields o.command.toEdit id none none children
  | .error fault => outcomeFields o.command.toEdit none (some fault.message) (some fault.code) children

def Rejection.toJson (r : Rejection) : Json :=
  .object [("index", .int r.index), ("reason", .text r.reason.message)]

def BatchResult.toJson (r : BatchResult) : Json :=
  .object [("case_id", r.id.toJson), ("summary", .ofOption .text r.summary), ("changed", .bool r.changed),
    ("applied", .int r.applied), ("failed", .int r.failed), ("rejected", .int r.rejections.length),
    ("needs_clarification", .bool r.needsClarification), ("clarification_prompt", .ofOption .text r.prompt),
    ("undo_available", .bool r.undoAvailable), ("message", .text r.message),
    ("outcomes", .list (r.outcomes.map (·.toJson))), ("rejections", .list (r.rejections.map (·.toJson)))]

def UndoStatus.toJson (u : UndoStatus) : Json :=
  .object [("case_id", u.id.toJson), ("available", .bool u.snapshot.isSome),
    ("summary", .ofOption .text (u.snapshot.bind (·.summary))),
    ("taken_at", .ofOption (fun s => .text s.takenAt.text) u.snapshot)]

def PhaseState.toJson (s : PhaseState) : Json :=
  .object [("name", .text s.name), ("label", .text s.label), ("description", .text s.description),
    ("complete", .bool s.complete), ("current", .bool s.current)]

def PhaseMove.toJson (m : PhaseMove) : Json :=
  .object [("case_id", m.id.toJson), ("previous_phase", .text m.previous), ("phase", .text m.phase),
    ("persisted", .bool m.persisted)]

end SafetyCase
