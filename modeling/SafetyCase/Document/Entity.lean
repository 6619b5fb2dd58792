import SafetyCase.Document.Kind
import SafetyCase.Identifier
import SafetyCase.Rating
/-! Entities of a case document. All types share an identifier, a parent and a place among their
siblings; what else an entity holds is listed by attribute, in the order of its type. Values are not
checked against an attribute here. -/
namespace SafetyCase

inductive Attribute where
  | activity | equipment | substances | description | label | categoryCode | consequence
  | existingControls | baseline | residual | hierarchy | owner | dueDate | status | text | timeLabel
  | confidence | statement | isRootCause
  deriving DecidableEq

namespace Attribute

def all : List Attribute :=
  [activity, equipment, substances, description, label, categoryCode, consequence, existingControls,
    baseline, residual, hierarchy, owner, dueDate, status, text, timeLabel, confidence, statement, isRootCause]

def name : Attribute → String
  | activity => "activity"
  | equipment => "equipment"
  | substances => "substances"
  | description => "description"
  | label => "label"
  | categoryCode => "category_code"
  | consequence => "consequence"
  | existingControls => "existing_controls"
  | baseline => "baseline"
  | residual => "residual"
  | hierarchy => "hierarchy"
  | owner => "owner"
  | dueDate => "due_date"
  | status => "status"
  | text => "text"
  | timeLabel => "time_label"
  | confidence => "confidence"
  | statement => "statement"
  | isRootCause => "is_root_cause"

end Attribute

/-- A stored value: plain data, or a rating, which merges into the one it replaces. -/
inductive Value where
  | data (j : Json)
  | rating (r : Rating)
  deriving DecidableEq

namespace Value

def absent : Value := .data .null

def rating? : Value → Option Rating
  | .rating r => some r
  | .data _ => none

def truthy : Value → Bool
  | .data j => j.truthy
  | .rating _ => true

end Value

def EntityType.attributes : EntityType → List (Attribute × Value)
  | .step =>
    [(.activity, .data (.text "")), (.equipment, .data (.list [])), (.substances, .data (.list [])),
      (.description, .absent)]
  | .hazard =>
    [(.label, .data (.text "")), (.description, .absent), (.categoryCode, .absent), (.consequence, .absent),
      (.existingControls, .data (.list [])), (.baseline, .absent), (.residual, .absent)]
  | .control => [(.description, .data (.text "")), (.hierarchy, .absent)]
  | .action =>
    [(.description, .data (.text "")), (.owner, .absent), (.dueDate, .absent), (.status, .data (.text "OPEN"))]
  | .timelineEvent =>
    [(.text, .data (.text "")), (.timeLabel, .absent), (.confidence, .data (.text "LIKELY"))]
  | .cause => [(.statement, .data (.text "")), (.isRootCause, .data (.bool false))]

def EntityType.attribute? (t : EntityType) (name : String) : Option Attribute :=
  (t.attributes.map (·.1)).find? (·.name = name)

def EntityType.fieldNames (t : EntityType) : List String :=
  "id" :: t.parentKey.toList ++ "order_index" :: t.attributes.map (·.1.name)

structure Entity where
  id : Identifier
  parent : Option Identifier
  order : Int
  attributes : List (Attribute × Value)
  deriving DecidableEq

namespace Entity

def get? (e : Entity) (a : Attribute) : Option Value := e.attributes.lookup a

def set (e : Entity) (a : Attribute) (v : Value) : Entity :=
  { e with attributes := e.attributes.map fun f => if f.1 = a then (a, v) else f }

def withOrder (e : Entity) (n : Int) : Entity := { e with order := n }

def rating? (e : Entity) (a : Attribute) : Option Rating := (e.get? a).bind (·.rating?)

def holds (e : Entity) (a : Attribute) : Bool := ((e.get? a).map (·.truthy)).getD false

@[simp] theorem idSet (e : Entity) (a : Attribute) (v : Value) : (e.set a v).id = e.id := rfl
@[simp] theorem parentSet (e : Entity) (a : Attribute) (v : Value) : (e.set a v).parent = e.parent := rfl
@[simp] theorem orderSet (e : Entity) (a : Attribute) (v : Value) : (e.set a v).order = e.order := rfl
@[simp] theorem idWithOrder (e : Entity) (n : Int) : (e.withOrder n).id = e.id := rfl
@[simp] theorem parentWithOrder (e : Entity) (n : Int) : (e.withOrder n).parent = e.parent := rfl
@[simp] theorem orderWithOrder (e : Entity) (n : Int) : (e.withOrder n).order = n := rfl

end Entity
end SafetyCase
