import SafetyCase.Document.Kind
import SafetyCase.Identifier
import SafetyCase.Json.Literal
/-! Why a change to a document's tree is refused. -/
namespace SafetyCase

inductive TreeFault where
  | unknownFields (type : EntityType) (names : List String)
  | parentRequired (type : EntityType)
  | missing (type : EntityType) (id : Identifier)
  | hasChildren (type : EntityType) (id : Identifier) (child : EntityType)
  | repeatedIds
  | notTheGroup (type : EntityType)
  | notUpdatable (field : String) (type : EntityType)
  deriving DecidableEq

def TreeFault.message : TreeFault → String
  | unknownFields type names => "Unknown " ++ type.name ++ " fields: " ++ Json.textsLiteral names ++ "."
  | parentRequired type => "A " ++ type.name ++ " requires a parent."
  | missing type id => type.name ++ " " ++ id.text ++ " does not exist."
  | hasChildren type id child =>
    type.name ++ " " ++ id.text ++ " still has " ++ child.plural ++ "; remove them first."
  | repeatedIds => "ordered_ids must not contain duplicates."
  | notTheGroup type =>
    "ordered_ids must contain exactly the ids of all existing " ++ type.plural ++ " in the group."
  | notUpdatable field type => "Field '" ++ field ++ "' cannot be updated on a " ++ type.name ++ "."

end SafetyCase
