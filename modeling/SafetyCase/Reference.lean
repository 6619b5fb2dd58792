import SafetyCase.Command.Basic
import SafetyCase.Tree.Siblings
/-! Finding what a command refers to. An identifier is tried first, then a position in the ordered group;
what is left out falls back to the first entity that fits. Nothing is changed here, and the document
that is searched may be older than the stored one. -/
namespace SafetyCase

inductive ReferenceFault where
  | noCollection (target : Target) (kind : Kind)
  | noTop (type : EntityType) (id : Option String) (index : Option Nat)
  | noSecond (type : EntityType) (id : Option String) (index : Option Nat)
  | noneWithId (type : EntityType) (id : Option String)
  | noneToReorder (type : EntityType) (id : String)
  | nothingToAttachTo (type : EntityType)
  | stray (type : EntityType) (id : Identifier)
  | noAddress (intent : Intent)
  | noOrder
  deriving DecidableEq

def indexLiteral (n : Option Nat) : String := (n.map fun i => Decimal.intText i).getD "None"

def ReferenceFault.message : ReferenceFault → String
  | noCollection target kind => target.name ++ " has no collection in " ++ kind.name ++ " documents."
  | noTop type id index =>
    "No " ++ type.name ++ " matches stepId=" ++ Json.optionLiteral id ++ " stepIndex=" ++ indexLiteral index ++ "."
  | noSecond type id index =>
    "No " ++ type.name ++ " matches hazardId=" ++ Json.optionLiteral id ++ " hazardIndex=" ++
      indexLiteral index ++ "."
  | noneWithId type id => "No " ++ type.name ++ " with id " ++ Json.optionLiteral id ++ "."
  | noneToReorder type id => "No " ++ type.name ++ " with id " ++ Text.quoted id ++ " to reorder."
  | nothingToAttachTo type => "The document has no " ++ type.name ++ " to attach to."
  | stray type id => type.name ++ " " ++ id.text ++ " does not belong to the group being reordered."
  | noAddress intent => intent.name ++ " does not address an entity."
  | noOrder => "REORDER needs orderedIds."

inductive Resolution where
  | entity (type : EntityType) (e : Entity)
  | placement (type : EntityType) (parent : Option Identifier) (position : Option Int)
  | ordering (type : EntityType) (parent : Option Identifier) (ids : List Identifier)
  deriving DecidableEq

namespace Document

def named? (d : Document) (t : EntityType) (ref : Option String) : Option Entity :=
  ref.bind fun s => (d.collection t).find? (·.id.text = s)

def member? (group : List Entity) (index : Option Nat) : Option Entity := index.bind fun i => group[i]?

def top (d : Document) (l : Location) : Except ReferenceFault Entity :=
  let t := d.kind.topLevel
  match d.named? t l.stepId <|> member? (d.siblings t none) l.stepIndex with
  | some e => .ok e
  | none => .error (.noTop t l.stepId l.stepIndex)

def second (d : Document) (l : Location) : Except ReferenceFault Entity :=
  let t := d.kind.secondLevel
  let missing := ReferenceFault.noSecond t l.hazardId l.hazardIndex
  match d.named? t l.hazardId with
  | some e => .ok e
  | none =>
    if l.hazardIndex.isSome && l.hasStep then
      match d.top l with
      | .error fault => .error fault
      | .ok parent =>
        match member? (d.siblings t (some parent.id)) l.hazardIndex with
        | some e => .ok e
        | none => .error missing
    else .error missing

def parentPlace (d : Document) (e : Entity) : Int :=
  match e.parent.bind (d.find? d.kind.topLevel) with
  | some parent => parent.order
  | none => -1

def readingLe (d : Document) (a b : Entity) : Bool :=
  d.parentPlace a < d.parentPlace b || (d.parentPlace a = d.parentPlace b && a.order ≤ b.order)

def secondLevel (d : Document) : List Entity := (d.collection d.kind.secondLevel).mergeSort d.readingLe

def firstOf (type : EntityType) : List Entity → Except ReferenceFault Entity
  | e :: _ => .ok e
  | [] => .error (.nothingToAttachTo type)

def defaultTop (d : Document) : Except ReferenceFault Entity :=
  firstOf d.kind.topLevel (d.siblings d.kind.topLevel none)

def defaultSecond (d : Document) (l : Location) : Except ReferenceFault Entity :=
  if l.hasStep then
    match d.top l with
    | .error fault => .error fault
    | .ok parent => firstOf d.kind.secondLevel (d.siblings d.kind.secondLevel (some parent.id))
  else firstOf d.kind.secondLevel d.secondLevel

def secondOrDefault (d : Document) (l : Location) : Except ReferenceFault Entity :=
  if l.hasHazard then d.second l else d.defaultSecond l

def existing (d : Document) (t : EntityType) (l : Location) : Except ReferenceFault Entity :=
  if t = d.kind.topLevel then d.top l
  else if t = d.kind.secondLevel then d.second l
  else
    let ref := if d.kind.control? = some t then l.controlId else l.actionId
    match d.named? t ref with
    | some e => .ok e
    | none => .error (.noneWithId t ref)

def parentFor (d : Document) (t : EntityType) (l : Location) : Except ReferenceFault (Option Identifier) :=
  if t = d.kind.topLevel then .ok none
  else if t = d.kind.secondLevel then
    (if l.hasStep then d.top l else d.defaultTop).map fun e => some e.id
  else (d.secondOrDefault l).map fun e => some e.id

def requestedPosition (d : Document) (t : EntityType) (intent : Intent) (l : Location) : Option Nat :=
  if intent = .insert && l.insertAfter.isNone then
    if t = d.kind.topLevel then l.stepIndex
    else if t = d.kind.secondLevel then l.hazardIndex
    else none
  else none

def placement (d : Document) (t : EntityType) (intent : Intent) (l : Location) : Except ReferenceFault Resolution :=
  match d.named? t l.insertAfter with
  | some anchor => .ok (.placement t anchor.parent (some (anchor.order + 1)))
  | none =>
    (d.parentFor t l).map fun parent =>
      .placement t parent ((d.requestedPosition t intent l).map fun n => (n : Int))

def namedEach (d : Document) (t : EntityType) : List String → Except ReferenceFault (List Entity)
  | [] => .ok []
  | ref :: rest =>
    match d.named? t (some ref) with
    | none => .error (.noneToReorder t ref)
    | some e => (namedEach d t rest).map (e :: ·)

def groupParent (d : Document) (t : EntityType) (l : Location) (es : List Entity) :
    Except ReferenceFault (Option Identifier) :=
  if t = d.kind.topLevel then .ok none
  else if (if t = d.kind.secondLevel then l.hasStep else l.hasHazard) then d.parentFor t l
  else .ok (es.head?.bind (·.parent))

def ordering (d : Document) (t : EntityType) (l : Location) (ids : List String) : Except ReferenceFault Resolution :=
  match d.namedEach t ids with
  | .error fault => .error fault
  | .ok es =>
    match d.groupParent t l es with
    | .error fault => .error fault
    | .ok parent =>
      match es.find? fun e => e.parent ≠ parent with
      | some e => .error (.stray t e.id)
      | none => .ok (.ordering t parent (es.map (·.id)))

def resolve (d : Document) (e : Edit) : Except ReferenceFault Resolution :=
  match e.target.entityType? d.kind with
  | none => .error (.noCollection e.target d.kind)
  | some t =>
    if e.target = .assessment then (d.secondOrDefault e.location).map (.entity t)
    else match e.intent with
      | .modify | .delete => (d.existing t e.location).map (.entity t)
      | .add | .insert => d.placement t e.intent e.location
      | .reorder =>
        match e.payload with
        | some (.order ids) => d.ordering t e.location ids
        | _ => .error .noOrder
      | .clarify => .error (.noAddress e.intent)

end Document
end SafetyCase
