import SafetyCase.Json
import SafetyCase.Decimal.Text
import SafetyCase.Text.Quoted
/-! The literal text of a value, as messages show it: texts quoted, lists in brackets, objects in
braces, and `None`, `True`, `False` for the constants. -/
namespace SafetyCase.Json

mutual
def literal : Json → String
  | .null => "None"
  | .bool true => "True"
  | .bool false => "False"
  | .int n => Decimal.intText n
  | .float x => x.text
  | .text s => Text.quoted s
  | .list items => "[" ++ literalItems items ++ "]"
  | .object fields => "\x7b" ++ literalFields fields ++ "\x7d"
termination_by structural j => j

def literalItems : List Json → String
  | [] => ""
  | [j] => literal j
  | j :: rest => literal j ++ ", " ++ literalItems rest
termination_by structural l => l

def literalFields : List (String × Json) → String
  | [] => ""
  | [(k, j)] => Text.quoted k ++ ": " ++ literal j
  | (k, j) :: rest => Text.quoted k ++ ": " ++ literal j ++ ", " ++ literalFields rest
termination_by structural l => l
end

def plain : Json → String
  | .text s => s
  | j => literal j

def textsLiteral (items : List String) : String := literal (.list (items.map .text))

def optionLiteral : Option String → String
  | some s => Text.quoted s
  | none => "None"

theorem textPlain (s : String) : plain (.text s) = s := rfl

end SafetyCase.Json
