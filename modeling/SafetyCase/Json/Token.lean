import SafetyCase.Decimal.Digits
import SafetyCase.Json
/-! The lexemes of a JSON text, each with the offset at which it starts. The list ends with `finish`, or
with the first place that is no lexeme: nothing after such a place is looked at. Offsets count
characters. -/
namespace SafetyCase.Json
open Decimal (isDigit numberOf exponentPart)

inductive Lexeme where
  | beginObject
  | endObject
  | beginList
  | endList
  | colon
  | comma
  | text (s : String)
  | atom (j : Json)
  | faultyText (fault : Nat)
  | unknown
  | finish

structure Token where
  offset : Nat
  lexeme : Lexeme

def isLayout (c : Char) : Bool := c == ' ' || c == '\t' || c == '\n' || c == '\r'

def hexValue? (c : Char) : Option Nat :=
  if '0' ≤ c && c ≤ '9' then some (c.toNat - 48)
  else if 'a' ≤ c && c ≤ 'f' then some (c.toNat - 87)
  else if 'A' ≤ c && c ≤ 'F' then some (c.toNat - 55)
  else none

def hexNumber? (cs : List Char) : Option Nat :=
  cs.foldl (fun total c => do some (16 * (← total) + (← hexValue? c))) (some 0)

def isHighSurrogate (n : Nat) : Bool := 0xD800 ≤ n && n < 0xDC00
def isLowSurrogate (n : Nat) : Bool := 0xDC00 ≤ n && n < 0xE000

def joinSurrogates (high low : Nat) : Nat := 0x10000 + (high - 0xD800) * 0x400 + (low - 0xDC00)

inductive LowHalf where
  | absent
  | faulty
  | found (code : Nat)

def lowHalf (cs : List Char) : LowHalf :=
  match cs with
  | '\\' :: 'u' :: rest =>
    if rest.length ≤ 4 then .absent
    else match hexNumber? (rest.take 4) with
      | none => .faulty
      | some low => if isLowSurrogate low then .found low else .absent
  | _ => .absent

def simpleEscape? : Char → Option Char
  | '"' => some '"'
  | '\\' => some '\\'
  | '/' => some '/'
  | 'b' => some '\x08'
  | 'f' => some '\x0c'
  | 'n' => some '\n'
  | 'r' => some '\r'
  | 't' => some '\t'
  | _ => none

/-- The characters of a text up to its closing quote, and how many were consumed with it. `opened` is
the offset of the opening quote, `offset` that of the first character left. -/
def scanText (opened offset : Nat) (done : List Char) (cs : List Char) : Except Nat (String × Nat) :=
  match cs with
  | [] => .error opened
  | '"' :: _ => .ok (String.ofList done.reverse, offset + 1)
  | '\\' :: [] => .error opened
  | '\\' :: 'u' :: rest =>
    if rest.length ≤ 4 then .error (offset + 1)
    else match hexNumber? (rest.take 4) with
      | none => .error (offset + 1)
      | some code =>
        if isHighSurrogate code then
          match lowHalf (rest.drop 4) with
          | .faulty => .error (offset + 7)
          | .found low =>
            scanText opened (offset + 12) (Char.ofNat (joinSurrogates code low) :: done) (rest.drop 10)
          | .absent => scanText opened (offset + 6) ('\uFFFD' :: done) (rest.drop 4)
        else
          scanText opened (offset + 6) (Char.ofNat code :: done) (rest.drop 4)
  | '\\' :: c :: rest =>
    match simpleEscape? c with
    | none => .error offset
    | some e => scanText opened (offset + 2) (e :: done) rest
  | c :: rest =>
    if c.toNat < 0x20 then .error offset
    else scanText opened (offset + 1) (c :: done) rest
termination_by cs.length
decreasing_by all_goals (simp only [List.length_cons, List.length_drop]; omega)

def integerPart (cs : List Char) : List Char :=
  match cs with
  | '0' :: _ => ['0']
  | cs => cs.takeWhile isDigit

def fractionPart (cs : List Char) : List Char :=
  match cs with
  | '.' :: rest => rest.takeWhile isDigit
  | _ => []

def nearest (negative : Bool) (digits : List Char) (power : Int) : Decimal.Binary :=
  (Decimal.Binary.ofDecimal negative (numberOf digits) power).getD (Decimal.Binary.largest negative)

def scanNumber (cs : List Char) : Option (Json × Nat) :=
  let negative : Bool := cs.head? = some '-'
  let sign := if negative then 1 else 0
  let whole := integerPart (cs.drop sign)
  if whole.isEmpty then none
  else
    let afterWhole := cs.drop (sign + whole.length)
    let tail := fractionPart afterWhole
    let afterTail := if tail.isEmpty then afterWhole else afterWhole.drop (1 + tail.length)
    let size := sign + whole.length + (if tail.isEmpty then 0 else 1 + tail.length)
    match exponentPart afterTail with
    | none =>
      if tail.isEmpty then
        let n : Int := numberOf whole
        some (.int (if negative then -n else n), size)
      else
        some (.float (nearest negative (whole ++ tail) (-tail.length)), size)
    | some (power, length) =>
      some (.float (nearest negative (whole ++ tail) (power - tail.length)), size + length)

def words : List (List Char × Json) :=
  [("null".toList, .null), ("true".toList, .bool true), ("false".toList, .bool false)]

def scanAtom (cs : List Char) : Option (Json × Nat) :=
  match words.find? fun w => w.1.isPrefixOf cs with
  | some (word, j) => some (j, word.length)
  | none => scanNumber cs

def scan (offset : Nat) (c : Char) (rest : List Char) : Lexeme × Nat :=
  match c with
  | '\x7b' => (.beginObject, 0)
  | '\x7d' => (.endObject, 0)
  | '[' => (.beginList, 0)
  | ']' => (.endList, 0)
  | ':' => (.colon, 0)
  | ',' => (.comma, 0)
  | '"' =>
    match scanText offset (offset + 1) [] rest with
    | .ok (s, stop) => (.text s, stop - offset - 1)
    | .error fault => (.faultyText fault, 0)
  | c =>
    match scanAtom (c :: rest) with
    | some (j, size) => (.atom j, size - 1)
    | none => (.unknown, 0)

def Lexeme.stops : Lexeme → Bool
  | .faultyText _ => true
  | .unknown => true
  | _ => false

def tokens (offset : Nat) (cs : List Char) : List Token :=
  match cs with
  | [] => [⟨offset, .finish⟩]
  | c :: rest =>
    if isLayout c then tokens (offset + 1) rest
    else
      let (lexeme, more) := scan offset c rest
      if lexeme.stops then [⟨offset, lexeme⟩]
      else ⟨offset, lexeme⟩ :: tokens (offset + 1 + more) (rest.drop more)
termination_by cs.length
decreasing_by all_goals (simp only [List.length_cons, List.length_drop]; omega)

end SafetyCase.Json
