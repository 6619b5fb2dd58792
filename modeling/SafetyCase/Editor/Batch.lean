import SafetyCase.Command.Envelope
import SafetyCase.Command.Validation
import SafetyCase.Editor.Desk
/-! Batches. A batch is checked, a snapshot is taken, its commands are applied in order and the case is read
once more. A batch that asks for clarification, or holds no valid command, touches nothing. -/
namespace SafetyCase

structure BatchResult where
  id : Identifier
  summary : Option String
  outcomes : List Outcome := []
  rejections : List Rejection
  needsClarification : Bool := false
  prompt : Option String := none
  undoAvailable : Bool

namespace BatchResult

def applied (r : BatchResult) : Nat := r.outcomes.countP (·.succeeded)

def failed (r : BatchResult) : Nat := r.outcomes.length - r.applied

def changed (r : BatchResult) : Bool := 0 < r.applied

def notApplied (r : BatchResult) : Nat := r.failed + r.rejections.length

def message (r : BatchResult) : String :=
  if r.needsClarification then r.prompt.getD "More information is needed before applying changes."
  else if r.outcomes.isEmpty then "Nothing changed."
  else if r.notApplied ≠ 0 then Decimal.intText r.notApplied ++ " command(s) could not be applied."
  else Decimal.intText r.applied ++ " command(s) applied."

end BatchResult

def clarificationPrompt (given : Option String) (commands : List Command) : Option String :=
  (given :: (commands.filter (·.isClarification)).map (·.asked)).findSome? fun p => p.filter (· ≠ "")

namespace Desk

def asksBack (b : Envelope) (check : BatchCheck) : Bool :=
  b.needsClarification || check.accepted.any (·.isClarification)

def applyAccepted (k : Desk) (d : Document) (summary : Option String) (check : BatchCheck) :
    Except Failure BatchResult × Desk :=
  let k := k.capture d summary
  match k.store.applyCommands d check.accepted with
  | (.error abort, store) => (.error (.ofAbort abort), { k with store })
  | (.ok outcomes, store) =>
    afterRefresh { k with store } fun fresh k =>
      let r : BatchResult :=
        { id := fresh.id, summary, outcomes, rejections := check.rejected, undoAvailable := k.slot.isSome }
      (.ok r, k.note (.batchApplied fresh.id r.applied r.failed r.rejections.length))

def applyBatch (k : Desk) (b : Envelope) : Except Failure BatchResult × Desk :=
  match k.session.document with
  | none => (.error .noCaseOpen, k)
  | some d =>
    let check := validateBatch d.kind k.session.limit b.commands
    let untouched : BatchResult :=
      { id := d.id, summary := b.summary, rejections := check.rejected, undoAvailable := k.slot.isSome }
    if asksBack b check then
      let prompt := clarificationPrompt b.clarificationPrompt check.accepted
      (.ok { untouched with needsClarification := true, prompt }, k.note (.askedBack d.id prompt))
    else if check.accepted.isEmpty then
      (.ok untouched, k.note (.nothingApplicable d.id check.rejected.length))
    else k.applyAccepted d b.summary check

end Desk
end SafetyCase
