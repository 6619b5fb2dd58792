import SafetyCase.Command.Envelope
import SafetyCase.Command.Payload
import SafetyCase.Command.Location
import SafetyCase.Json.Reader
import SafetyCase.Web.Route
/-! Requests: the body is read first and must be JSON where an endpoint wants one; then the identifier in the
path and the fields of the body are checked together, and what is wrong with the path comes first. -/
namespace SafetyCase.Web
open Intake (Checked Issue Place)

inductive Body where
  | absent
  | value (j : Json)
  | raw (s : String)

structure Request where
  method : String
  target : String
  body : Body := .absent

inductive Call where
  | health
  | createCase (kind : Kind) (title : String)
  | listCases
  | getCase (id : Identifier)
  | applyBatch (id : Identifier) (envelope : Envelope)
  | applyCommand (id : Identifier) (raw : Json)
  | undo (id : Identifier)
  | undoStatus (id : Identifier)
  | reorder (id : Identifier) (target : Target) (ids : List String) (location : Location)
  | phases (id : Identifier)
  | advance (id : Identifier)
  | jump (id : Identifier) (phase : String)

namespace Body

def json : Body → Checked (Option Json)
  | absent => .ok none
  | value j => .ok (some j)
  | raw s =>
    if s = "" then .ok none
    else
      let cs := s.toList
      match Json.read (if cs.head? = some '\ufeff' then String.ofList (cs.drop 1) else s) with
      | .ok j => .ok (some j)
      | .error offset => .error [⟨[.key "body", .index offset], .badJson⟩]

def read (content : Option Json) (reader : Json → Checked α) : Checked α :=
  Checked.under (.key "body") (match content with
    | none => Checked.fail .missing
    | some j => reader j)

def record (content : Option Json) (reader : List (String × Json) → Checked α) : Checked α :=
  read content fun j => match j with
    | .object fields => reader fields
    | _ => Checked.fail .notAttributes

end Body

def exact (name : String) : Intake.Key := ⟨name, name⟩

def maxTitle : Nat := 300

def readTitle : Json → Checked String
  | .text s =>
    if s = "" then Checked.fail .emptyText
    else if s.length > maxTitle then Checked.fail (.longText maxTitle)
    else if Text.strip s = "" then Checked.fail .blankTitle
    else .ok (Text.strip s)
  | _ => Checked.fail .notText

def readNewCase (fields : List (String × Json)) : Checked (Kind × String) :=
  Checked.both Prod.mk
    (Intake.optional (exact "kind") fields .riskAssessment
      (Intake.member (Kind.all.map (·.name)) Kind.ofName?))
    (Intake.required (exact "title") fields readTitle)

def readReorderTarget (j : Json) : Checked Target :=
  match Intake.member Target.names Target.ofName? j with
  | .ok .assessment | .ok .multiple => Checked.fail .notReorderable
  | checked => checked

def readReorder (fields : List (String × Json)) : Checked (Target × List String × Location) :=
  Checked.both Prod.mk (Intake.required (exact "target") fields readReorderTarget)
    (Checked.both Prod.mk (Intake.required (exact "ordered_ids") fields (Intake.filledList Intake.text))
      ((Intake.optional (exact "location") fields none (Intake.nullable (Location.read .notAttributes))).map
        (·.getD {})))

def readPhase (fields : List (String × Json)) : Checked String :=
  Intake.required (exact "phase") fields Intake.filledText

def readId (text : String) : Checked Identifier :=
  match Identifier.ofText? text with
  | some id => .ok id
  | none => .error [⟨[.key "path", .key "case_id"], .badIdentifier⟩]

def Endpoint.takesBody : Endpoint → Bool
  | createCase | applyBatch | applyCommand | reorder | jump => true
  | _ => false

def Endpoint.read (e : Endpoint) (id : String) (content : Option Json) : Checked Call :=
  match e with
  | .health => .ok .health
  | .listCases => .ok .listCases
  | .createCase => (Body.record content readNewCase).map fun c => .createCase c.1 c.2
  | .getCase => (readId id).map .getCase
  | .undo => (readId id).map .undo
  | .undoStatus => (readId id).map .undoStatus
  | .phases => (readId id).map .phases
  | .advance => (readId id).map .advance
  | .applyBatch => Checked.both .applyBatch (readId id) (Body.read content (Envelope.read .notAttributes))
  | .applyCommand =>
    Checked.both .applyCommand (readId id) (Body.read content fun j => (Intake.object j).map .object)
  | .reorder => Checked.both (fun i r => .reorder i r.1 r.2.1 r.2.2) (readId id) (Body.record content readReorder)
  | .jump => Checked.both .jump (readId id) (Body.record content readPhase)

def Endpoint.call (e : Endpoint) (id : String) (body : Body) : Checked Call :=
  if e.takesBody then
    match body.json with
    | .error issues => .error issues
    | .ok content => e.read id content
  else e.read id none

end SafetyCase.Web
