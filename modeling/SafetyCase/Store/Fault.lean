import SafetyCase.Reference
import SafetyCase.Tree.Fault
/-! Why the store does not answer a call. A case that cannot be read is kept apart from a rejected write:
a batch survives the second and not the first. -/
namespace SafetyCase

inductive ReadFault where
  | unknownCase (id : Identifier)
  | unavailable
  deriving DecidableEq

inductive WriteFault where
  | unavailable
  | kindMismatch (stored given : Kind)
  | notAPhase (name : String) (kind : Kind)
  | missingParent (type : EntityType) (id : Option Identifier)
  | tree (fault : TreeFault)
  deriving DecidableEq

inductive StoreFault where
  | read (fault : ReadFault)
  | write (fault : WriteFault)
  deriving DecidableEq

def unavailableText : String := "store unavailable"

def ReadFault.message : ReadFault → String
  | unknownCase id => "Case " ++ id.text ++ " not found."
  | unavailable => unavailableText

def WriteFault.message : WriteFault → String
  | unavailable => unavailableText
  | kindMismatch stored given =>
    "Cannot replace a " ++ stored.name ++ " case with a " ++ given.name ++ " document."
  | notAPhase name kind => Text.quoted name ++ " is not a " ++ kind.name ++ " phase."
  | missingParent type id =>
    "Parent " ++ type.name ++ " " ++ (id.map (·.text)).getD "None" ++ " does not exist."
  | tree fault => fault.message

def StoreFault.message : StoreFault → String
  | read fault => fault.message
  | write fault => fault.message

inductive EditFault where
  | reference (fault : ReferenceFault)
  | write (fault : WriteFault)
  deriving DecidableEq

namespace EditFault

def code : EditFault → String
  | reference .noOrder => "CommandValidationError"
  | reference _ => "ReferenceNotFound"
  | write _ => "StoreWriteFailure"

def message : EditFault → String
  | reference fault => fault.message
  | write fault => fault.message

end EditFault
end SafetyCase
