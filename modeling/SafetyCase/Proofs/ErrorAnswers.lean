import SafetyCase.Proofs.Interruptions
import SafetyCase.Proofs.Replay
/-! Answers that tell of an error, and the stored cases. An operation that has written ends by reading its case again,
so what fails in another way than by that reading has written nothing; an order that was not applied was
turned down as a whole. -/
namespace SafetyCase

theorem Signal.failing {heard : α → Signal} {failure : Failure} (read : ∀ id cause, failure ≠ .refresh id cause) :
    ofAnswer heard (.error failure) = silent := by
  cases failure with
  | refresh => exact absurd rfl (read _ _)
  | _ => rfl

namespace Desk

variable {kinds : Identifier → Kind} {k k' : Desk} {held : Document}

theorem orderSheltered (held : Document) (target : Target) (ids : List String) (location : Location) :
    Store.Sheltered held (reorderCommand target ids location).toEdit := by
  intro w call
  obtain ⟨t, parent, moved, rfl⟩ := Edit.orderCalls rfl rfl call
  trivial

end Desk

namespace Web.Service

variable {kinds : Identifier → Kind} {v : Service} {id : Identifier} {k : Desk}

def posted (tail : String) (body : Body) : Request :=
  ⟨"POST", "/api/v1/cases/00000000-0000-4000-8000-000000000001/" ++ tail, body⟩

def opened : Service := (start {} ⟨0⟩).startup

def stepped : Service :=
  (opened.answerAmid (posted "commands" (.value (worded "ADD" "STEP" [] [("activity", .text "Load")]))) {}).2

end Web.Service
end SafetyCase
