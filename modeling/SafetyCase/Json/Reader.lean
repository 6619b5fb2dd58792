import SafetyCase.Json.Token
/-! Reading a JSON text. A text that is no JSON fails with the offset of the first place at which no
value can follow. A repeated key takes its last value at its first place. -/
namespace SafetyCase.Json

/-- A container part way through; items are held last first. -/
inductive Frame where
  | list (items : List Json)
  | object (fields : List (String × Json)) (key : String)

inductive Reading where
  | value (stack : List Frame)
  | firstItem (stack : List Frame)
  | name (fields : List (String × Json)) (stack : List Frame) (mayClose : Bool)
  | colon (fields : List (String × Json)) (key : String) (stack : List Frame)
  | between (stack : List Frame)
  | complete (j : Json)
  | finished (j : Json)

def deliver (j : Json) : List Frame → Reading
  | [] => .complete j
  | .list items :: stack => .between (.list (j :: items) :: stack)
  | .object fields key :: stack => .between (.object (setField key j fields) key :: stack)

def startValue (stack : List Frame) (t : Token) : Except Nat Reading :=
  match t.lexeme with
  | .beginObject => .ok (.name [] stack true)
  | .beginList => .ok (.firstItem stack)
  | .text s => .ok (deliver (.text s) stack)
  | .atom j => .ok (deliver j stack)
  | .faultyText fault => .error fault
  | _ => .error t.offset

def Reading.step (state : Reading) (t : Token) : Except Nat Reading :=
  match state with
  | .value stack => startValue stack t
  | .firstItem stack =>
    match t.lexeme with
    | .endList => .ok (deliver (.list []) stack)
    | _ => startValue (.list [] :: stack) t
  | .name fields stack mayClose =>
    match t.lexeme with
    | .text key => .ok (.colon fields key stack)
    | .faultyText fault => .error fault
    | .endObject => if mayClose then .ok (deliver (.object fields) stack) else .error t.offset
    | _ => .error t.offset
  | .colon fields key stack =>
    match t.lexeme with
    | .colon => .ok (.value (.object fields key :: stack))
    | _ => .error t.offset
  | .between stack =>
    match stack, t.lexeme with
    | .list items :: outer, .comma => .ok (.value (.list items :: outer))
    | .list items :: outer, .endList => .ok (deliver (.list items.reverse) outer)
    | .object fields _ :: outer, .comma => .ok (.name fields outer false)
    | .object fields _ :: outer, .endObject => .ok (deliver (.object fields) outer)
    | _, _ => .error t.offset
  | .complete j =>
    match t.lexeme with
    | .finish => .ok (.finished j)
    | _ => .error t.offset
  | .finished _ => .error t.offset

def read (s : String) : Except Nat Json :=
  let cs := s.toList
  match (tokens 0 cs).foldlM Reading.step (.value []) with
  | .ok (.finished j) => .ok j
  | .ok _ => .error cs.length
  | .error offset => .error offset

end SafetyCase.Json
