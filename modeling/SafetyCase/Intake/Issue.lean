import SafetyCase.Calendar.Reading
import SafetyCase.Rating.Words
/-! What can be wrong with a value from outside, where it stands, and the collection of everything that is
wrong with a record. Issues of a record keep the order of its fields. -/
namespace SafetyCase.Intake

inductive Complaint where
  | missing
  | notText
  | emptyText
  | longText (limit : Nat)
  | notList
  | emptyList
  | notObject
  | notRecord (label : String)
  | notAttributes
  | notMember (options : List String)
  | notLiteral (options : List String)
  | notInt
  | fractionalInt
  | unreadableInt
  | oversizedInt
  | negative
  | notFlag
  | unreadableFlag
  | date (fault : Date.Fault)
  | rating (fault : RatingFault)
  | blankTitle
  | notReorderable
  | badIdentifier
  | badJson
  deriving DecidableEq

def alternatives : List String → String
  | [] => ""
  | [a] => "'" ++ a ++ "'"
  | [a, b] => "'" ++ a ++ "' or '" ++ b ++ "'"
  | a :: rest => "'" ++ a ++ "', " ++ alternatives rest

namespace Complaint

def code : Complaint → String
  | missing => "missing"
  | notText => "string_type"
  | emptyText => "string_too_short"
  | longText _ => "string_too_long"
  | notList => "list_type"
  | emptyList => "too_short"
  | notObject => "dict_type"
  | notRecord _ => "model_type"
  | notAttributes => "model_attributes_type"
  | notMember _ => "enum"
  | notLiteral _ => "literal_error"
  | notInt => "int_type"
  | fractionalInt => "int_from_float"
  | unreadableInt => "int_parsing"
  | oversizedInt => "int_parsing_size"
  | negative => "greater_than_equal"
  | notFlag => "bool_type"
  | unreadableFlag => "bool_parsing"
  | date .notDate => "date_type"
  | date .inexact => "date_from_datetime_inexact"
  | date (.unreadable _) => "date_from_datetime_parsing"
  | date .yearZero => "date_parsing"
  | rating _ => "value_error"
  | blankTitle => "value_error"
  | notReorderable => "value_error"
  | badIdentifier => "uuid_parsing"
  | badJson => "json_invalid"

def message : Complaint → String
  | missing => "Field required"
  | notText => "Input should be a valid string"
  | emptyText => "String should have at least 1 character"
  | longText limit => "String should have at most " ++ Decimal.intText limit ++ " characters"
  | notList => "Input should be a valid list"
  | emptyList => "List should have at least 1 item after validation, not 0"
  | notObject => "Input should be a valid dictionary"
  | notRecord label => "Input should be a valid dictionary or instance of " ++ label
  | notAttributes => "Input should be a valid dictionary or object to extract fields from"
  | notMember options => "Input should be " ++ alternatives options
  | notLiteral options => "Input should be " ++ alternatives options
  | notInt => "Input should be a valid integer"
  | fractionalInt => "Input should be a valid integer, got a number with a fractional part"
  | unreadableInt => "Input should be a valid integer, unable to parse string as an integer"
  | oversizedInt => "Unable to parse input string as an integer, exceeded maximum size"
  | negative => "Input should be greater than or equal to 0"
  | notFlag => "Input should be a valid boolean"
  | unreadableFlag => "Input should be a valid boolean, unable to interpret input"
  | date .notDate => "Input should be a valid date"
  | date .inexact => "Datetimes provided to dates should have zero time - e.g. be exact dates"
  | date (.unreadable why) => "Input should be a valid date or datetime, " ++ why.message
  | date .yearZero => "Input should be a valid date in the format YYYY-MM-DD, year 0 is out of range"
  | rating fault => "Value error, " ++ fault.message
  | blankTitle => "Value error, title must not be blank"
  | notReorderable => "Value error, target must be STEP, HAZARD, CONTROL or ACTION"
  | badIdentifier => "Input should be a valid UUID"
  | badJson => "JSON decode error"

end Complaint

inductive Place where
  | key (name : String)
  | index (i : Nat)
  deriving DecidableEq

def Place.text : Place → String
  | key name => name
  | index i => Decimal.intText i

def Place.toJson : Place → Json
  | key name => .text name
  | index i => .int i

structure Issue where
  path : List Place
  complaint : Complaint
  deriving DecidableEq

def Issue.toJson (i : Issue) : Json :=
  .object [("type", .text i.complaint.code), ("loc", .list (i.path.map (·.toJson))),
    ("msg", .text i.complaint.message)]

abbrev Checked (α : Type) := Except (List Issue) α

namespace Checked

def fail (c : Complaint) : Checked α := .error [⟨[], c⟩]

def under (place : Place) : Checked α → Checked α
  | .ok a => .ok a
  | .error issues => .error (issues.map fun i => ⟨place :: i.path, i.complaint⟩)

def both (f : α → β → γ) : Checked α → Checked β → Checked γ
  | .ok a, .ok b => .ok (f a b)
  | .ok _, .error issues => .error issues
  | .error issues, .ok _ => .error issues
  | .error first, .error second => .error (first ++ second)

theorem bothOkIff {f : α → β → γ} {x : Checked α} {y : Checked β} {c : γ} :
    both f x y = .ok c ↔ ∃ a b, x = .ok a ∧ y = .ok b ∧ f a b = c := by
  cases x <;> cases y <;> simp [both]

end Checked
end SafetyCase.Intake
