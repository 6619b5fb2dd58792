import SafetyCase.Editor.Apply
import SafetyCase.Phase.Gate
/-! Why an operation of the editor as a whole fails. What goes wrong with a single command of a batch is
part of the batch's result and no failure. -/
namespace SafetyCase

inductive Failure where
  | noCaseOpen
  | read (fault : ReadFault)
  | write (fault : WriteFault)
  | gate (fault : GateFault)
  | refresh (id : Identifier) (cause : ReadFault)
  | restore (cause : StoreFault)
  | nothingToUndo
  | blankTitle
  | orderForRating
  | reorderFailed (fault : CommandFault)
  deriving DecidableEq

namespace Failure

def message : Failure → String
  | noCaseOpen => "No case is open in this session."
  | read fault => fault.message
  | write fault => fault.message
  | gate fault => fault.message
  | refresh id cause => "Could not reload case " ++ id.text ++ ": " ++ cause.message
  | restore cause => "Undo failed, the snapshot is kept for retry: " ++ cause.message
  | nothingToUndo => "There is no contextual update to undo."
  | blankTitle => "title must not be blank."
  | orderForRating => "'ReorderData' object has no attribute 'severity'"
  | reorderFailed fault => fault.message

def ofStore : StoreFault → Failure
  | .read fault => read fault
  | .write fault => write fault

def ofAbort : Abort → Failure
  | .read fault => read fault
  | .orderForRating => orderForRating

end Failure
end SafetyCase
