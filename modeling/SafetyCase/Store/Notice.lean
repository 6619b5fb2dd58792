import SafetyCase.Log.Level
import SafetyCase.Store.Fault
/-! What the engine reports about its work, as typed notices: a level, the case it is about, and a text. -/
namespace SafetyCase

inductive Notice where
  | created (id : Identifier) (kind : Kind)
  | seeded (id : Identifier)
  | replaced (id : Identifier)
  | deleted (id : Identifier) (type : EntityType) (entity : Identifier) (count : Nat)
  | applying (id : Identifier) (intent : Intent) (target : Target)
  | skipped (id : Identifier) (intent : Intent) (target : Target) (fault : EditFault)
  | askedBack (id : Identifier) (prompt : Option String)
  | nothingApplicable (id : Identifier) (rejected : Nat)
  | batchApplied (id : Identifier) (succeeded failed rejected : Nat)
  | refreshFailed (id : Identifier) (fault : ReadFault)
  | snapshotReplaced (owner : Identifier)
  | snapshotDropped (owner : Identifier)
  | restoreFailed (id : Identifier) (fault : StoreFault)
  | undone (id : Identifier) (summary : Option String)
  | phaseKept (id : Identifier) (phase : String) (fault : WriteFault)
  | phaseMoved (id : Identifier) (previous phase : String)
  deriving DecidableEq

namespace Notice

def level : Notice → Level
  | created _ _ | seeded _ | askedBack _ _ | nothingApplicable _ _ | batchApplied _ _ _ _ | undone _ _
  | phaseMoved _ _ _ => .info
  | replaced _ | deleted _ _ _ _ | applying _ _ _ | snapshotReplaced _ | snapshotDropped _ => .debug
  | skipped _ _ _ _ | phaseKept _ _ _ => .warning
  | refreshFailed _ _ | restoreFailed _ _ => .error

def caseId? : Notice → Option Identifier
  | created id _ | seeded id | replaced id | deleted id _ _ _ | applying id _ _ | skipped id _ _ _
  | askedBack id _ | nothingApplicable id _ | batchApplied id _ _ _ | refreshFailed id _
  | restoreFailed id _ | undone id _ | phaseKept id _ _ | phaseMoved id _ _ => some id
  | snapshotReplaced _ | snapshotDropped _ => none

def optionText (s : Option String) : String := s.getD "None"

def message : Notice → String
  | created _ kind => "Created " ++ kind.name ++ " case"
  | seeded _ => "Seeded demo case"
  | replaced _ => "Case replaced in bulk"
  | deleted _ type entity count =>
    "Deleted " ++ type.name ++ " " ++ entity.text ++ " (" ++ Decimal.intText count ++ " entities removed)"
  | applying _ intent target => "Applying " ++ intent.name ++ " " ++ target.name
  | skipped _ intent target fault =>
    intent.name ++ " " ++ target.name ++ " skipped (" ++ fault.code ++ "): " ++ fault.message
  | askedBack _ prompt => "Batch needs clarification: " ++ optionText prompt
  | nothingApplicable _ rejected =>
    "Batch had no applicable commands (" ++ Decimal.intText rejected ++ " rejected)"
  | batchApplied _ succeeded failed rejected =>
    "Batch applied: " ++ Decimal.intText succeeded ++ " succeeded, " ++ Decimal.intText failed ++ " failed, " ++
      Decimal.intText rejected ++ " rejected"
  | refreshFailed _ fault => "Refresh failed: " ++ fault.message
  | snapshotReplaced owner => "Discarding undo snapshot for case " ++ owner.text
  | snapshotDropped owner => "Case changed; dropping undo snapshot for " ++ owner.text
  | restoreFailed _ fault => "Undo restore failed: " ++ fault.message
  | undone _ summary => "Undid contextual update: " ++ optionText summary
  | phaseKept _ phase fault => "Phase " ++ phase ++ " not persisted: " ++ fault.message
  | phaseMoved _ previous phase => "Phase moved " ++ previous ++ " -> " ++ phase

end Notice
end SafetyCase
