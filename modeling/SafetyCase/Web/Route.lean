import SafetyCase.Json.Token
/-! Paths and the endpoints they lead to. A path is decoded and split at its slashes; a path with slashes
too many at its end is redirected to the one without them. -/
namespace SafetyCase.Web

inductive Endpoint where
  | health | createCase | listCases | getCase | applyBatch | applyCommand | undo | undoStatus | reorder
  | phases | advance | jump
  deriving DecidableEq

inductive Route where
  | health
  | cases
  | oneCase (id : String)
  | batch (id : String)
  | commands (id : String)
  | undo (id : String)
  | order (id : String)
  | phases (id : String)
  | advance (id : String)
  | phase (id : String)
  deriving DecidableEq

/-- Stands for a byte outside of ASCII; no route and no identifier holds one. -/
def foreign : Char := '\ufffd'

def decode : List Char → List Char
  | '%' :: a :: b :: rest =>
    match Json.hexNumber? [a, b] with
    | some n => (if n < 128 then Char.ofNat n else foreign) :: decode rest
    | none => '%' :: decode (a :: b :: rest)
  | c :: rest => c :: decode rest
  | [] => []

def pathOf (target : String) : List Char :=
  decode (target.toList.takeWhile fun c => c ≠ '?' && c ≠ '#')

def segments (path : List Char) : List String := (path.splitOn '/').map String.ofList

namespace Route

def ofSegments? : List String → Option Route
  | ["", "health"] => some .health
  | "" :: "api" :: "v1" :: "cases" :: below =>
    match below with
    | [] => some .cases
    | "" :: _ => none
    | [id] => some (.oneCase id)
    | [id, "contextual-update", "apply"] => some (.batch id)
    | [id, "contextual-update", "undo"] => some (.undo id)
    | [id, "commands"] => some (.commands id)
    | [id, "order"] => some (.order id)
    | [id, "phases"] => some (.phases id)
    | [id, "advance-phase"] => some (.advance id)
    | [id, "phase"] => some (.phase id)
    | _ => none
  | _ => none

def ofPath? (path : List Char) : Option Route := ofSegments? (segments path)

def redirects (path : List Char) : Bool :=
  path.getLast? = some '/' && (ofPath? (path.reverse.dropWhile (· = '/')).reverse).isSome

def id? : Route → Option String
  | health | cases => none
  | oneCase id | batch id | commands id | undo id | order id | phases id | advance id | phase id => some id

def endpoint? : Route → String → Option Endpoint
  | .health, "GET" => some .health
  | .cases, "GET" => some .listCases
  | .cases, "POST" => some .createCase
  | .oneCase _, "GET" => some .getCase
  | .batch _, "POST" => some .applyBatch
  | .commands _, "POST" => some .applyCommand
  | .undo _, "GET" => some .undoStatus
  | .undo _, "POST" => some .undo
  | .order _, "PUT" => some .reorder
  | .phases _, "GET" => some .phases
  | .advance _, "POST" => some .advance
  | .phase _, "POST" => some .jump
  | _, _ => none

end Route
end SafetyCase.Web
