import SafetyCase.Json.Token
import SafetyCase.Intake.Issue
/-! Lenient reading of plain values and of the fields of a record. A field may be spelled in camel case or
with underscores; where both are given, the camel spelling counts, whatever it holds. -/
namespace SafetyCase.Intake
open Checked (fail under both)

structure Key where
  camel : String
  snake : String
  deriving DecidableEq

def Key.find? (k : Key) (fields : List (String × Json)) : Option (String × Json) :=
  match fields.lookup k.camel with
  | some j => some (k.camel, j)
  | none => (fields.lookup k.snake).map fun j => (k.snake, j)

def optional (k : Key) (fields : List (String × Json)) (default : α) (read : Json → Checked α) : Checked α :=
  match k.find? fields with
  | none => .ok default
  | some (used, j) => under (.key used) (read j)

def required (k : Key) (fields : List (String × Json)) (read : Json → Checked α) : Checked α :=
  match k.find? fields with
  | none => under (.key k.camel) (fail .missing)
  | some (used, j) => under (.key used) (read j)

def nullable (read : Json → Checked α) : Json → Checked (Option α)
  | .null => .ok none
  | j => match read j with
    | .ok a => .ok (some a)
    | .error issues => .error issues

def text : Json → Checked String
  | .text s => .ok s
  | _ => fail .notText

def filledText : Json → Checked String
  | .text s => if s = "" then fail .emptyText else .ok s
  | _ => fail .notText

def object : Json → Checked (List (String × Json))
  | .object fields => .ok fields
  | _ => fail .notObject

def itemsFrom (read : Json → Checked α) : Nat → List Json → Checked (List α)
  | _, [] => .ok []
  | i, j :: rest => both List.cons (under (.index i) (read j)) (itemsFrom read (i + 1) rest)

def list (read : Json → Checked α) : Json → Checked (List α)
  | .list items => itemsFrom read 0 items
  | _ => fail .notList

def filledList (read : Json → Checked α) (j : Json) : Checked (List α) :=
  match list read j with
  | .ok [] => fail .emptyList
  | checked => checked

def filledObjects : Json → Checked (List Json) := filledList fun j => (object j).map .object

def groupedDigits? (cs : List Char) : Option (List Char) :=
  let groups := cs.splitOn '_'
  if groups.all fun g => !g.isEmpty && g.all Decimal.isDigit then some groups.flatten else none

def intOfText? (s : String) : Option Int :=
  let cs := Text.trim Text.isSpace s.toList
  let negative : Bool := cs.head? = some '-'
  let body := if negative || cs.head? = some '+' then cs.drop 1 else cs
  let whole := body.takeWhile (· ≠ '.')
  if (body.drop (whole.length + 1)).all (· = '0') then
    (groupedDigits? whole).map fun digits =>
      let n : Int := Decimal.numberOf digits
      if negative then -n else n
  else none

def wordBound : Int := 0x8000000000000000

/-- An integer may have any size, but a floating-point number must lie within 64 bits. -/
def int : Json → Checked Int
  | .int n => .ok n
  | .bool b => .ok (if b then 1 else 0)
  | .float x => match x.toInt? with
    | some n => if -wordBound < n ∧ n < wordBound then .ok n else fail .oversizedInt
    | none => fail .fractionalInt
  | .text s => match intOfText? s with
    | some n => .ok n
    | none => fail .unreadableInt
  | _ => fail .notInt

def nat (j : Json) : Checked Nat :=
  match int j with
  | .ok n => if n < 0 then fail .negative else .ok n.toNat
  | .error issues => .error issues

def falseWords : List String := ["0", "off", "f", "false", "n", "no"]
def trueWords : List String := ["1", "on", "t", "true", "y", "yes"]

def flag : Json → Checked Bool
  | .bool b => .ok b
  | .int n =>
    if n = 0 then .ok false
    else if n = 1 then .ok true
    else if -wordBound ≤ n ∧ n < wordBound then fail .unreadableFlag
    else fail .notFlag
  | .float x =>
    if x.toInt? = some 0 then .ok false
    else if x.toInt? = some 1 then .ok true
    else fail .notFlag
  | .text s =>
    let word := String.ofList (Text.lowerAscii s.toList)
    if falseWords.contains word then .ok false
    else if trueWords.contains word then .ok true
    else fail .unreadableFlag
  | _ => fail .notFlag

def date (j : Json) : Checked Date :=
  match Date.ofJson j with
  | .ok d => .ok d
  | .error fault => fail (.date fault)

def member (names : List String) (ofName? : String → Option α) : Json → Checked α
  | .text s => match ofName? s with
    | some a => .ok a
    | none => fail (.notMember names)
  | _ => fail (.notMember names)

def asKeyword : Json → Json
  | .text s => .text (Text.keyword s)
  | j => j

end SafetyCase.Intake
