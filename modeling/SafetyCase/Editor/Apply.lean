import SafetyCase.Store.Write
/-! Applying commands to the store, one store call for each edit. References are resolved in the document
the editor holds, which may be older than the stored one. An edit whose reference is not found, or whose
write is rejected, is recorded as failed and the next one is tried; only a case that cannot be reached,
or an order where a rating is due, ends the run. -/
namespace SafetyCase

inductive Abort where
  | read (fault : ReadFault)
  | orderForRating
  deriving DecidableEq

structure EditOutcome where
  edit : Edit
  settled : Except EditFault (Option Identifier)

def EditOutcome.fault? (o : EditOutcome) : Option EditFault :=
  match o.settled with
  | .ok _ => none
  | .error fault => some fault

inductive CommandFault where
  | edit (fault : EditFault)
  | parts (failed total : Nat) (first : EditFault)
  deriving DecidableEq

namespace CommandFault

def code : CommandFault → String
  | edit fault => fault.code
  | parts _ _ first => first.code

def message : CommandFault → String
  | edit fault => fault.message
  | parts failed total _ =>
    Decimal.intText failed ++ " of " ++ Decimal.intText total ++ " sub-commands could not be applied."

end CommandFault

structure Outcome where
  command : Command
  settled : Except CommandFault (Option Identifier)
  parts : List EditOutcome := []

def Outcome.succeeded (o : Outcome) : Bool :=
  match o.settled with
  | .ok _ => true
  | .error _ => false

def EntityType.newText : EntityType → Attribute × String
  | .step => (.activity, "New step")
  | .hazard => (.label, "New hazard")
  | .control => (.description, "New control")
  | .action => (.description, "New action")
  | .timelineEvent => (.text, "New event")
  | .cause => (.statement, "New cause")

namespace Edit

def values (e : Edit) : List (String × Value) := e.changes.map fun c => (c.1, .data c.2)

def newValues (e : Edit) (t : EntityType) : List (String × Value) :=
  e.values ++ [(t.newText.1.name, .data (.text t.newText.2))]

def slot (e : Edit) (d : Document) : RatingSlot :=
  let named := match e.payload with
    | some (.assessment a) => a.slot
    | _ => none
  named.getD (if d.phase = Kind.residualPhase then .residual else .baseline)

def newRating? (e : Edit) : Option Value :=
  match e.intent, e.payload with
  | .delete, _ => some .absent
  | _, some (.assessment a) => some (.rating a.rating)
  | _, _ => none

end Edit

namespace Store

def deletePolicy (k : Kind) (t : EntityType) : DeletePolicy := if t = k.topLevel then k.topLevelDelete else .cascade

def perform (s : Store) (d : Document) (e : Edit) : Resolution → Except StoreFault (Option Identifier) × Store
  | .placement t parent position =>
    match s.createEntity d.id t parent position (e.newValues t) with
    | (.ok created, s) => (.ok (some created.id), s)
    | (.error fault, s) => (.error fault, s)
  | .ordering t parent ids =>
    match s.reorderEntities d.id t parent ids with
    | (.ok _, s) => (.ok none, s)
    | (.error fault, s) => (.error fault, s)
  | .entity t x =>
    if e.intent = .delete then
      match s.deleteEntity d.id t x.id (deletePolicy d.kind t) with
      | (.ok _, s) => (.ok (some x.id), s)
      | (.error fault, s) => (.error fault, s)
    else
      match s.updateEntity d.id t x.id e.values with
      | (.ok _, s) => (.ok (some x.id), s)
      | (.error fault, s) => (.error fault, s)

def assess (s : Store) (d : Document) (e : Edit) (t : EntityType) (x : Entity) (rating : Value) :
    Except StoreFault (Option Identifier) × Store :=
  match s.updateEntity d.id t x.id [((e.slot d).toAttribute.name, rating)] with
  | (.ok _, s) => (.ok (some x.id), s)
  | (.error fault, s) => (.error fault, s)

def skip (s : Store) (d : Document) (e : Edit) (fault : EditFault) : Except Abort EditOutcome × Store :=
  (.ok ⟨e, .error fault⟩, s.note (.skipped d.id e.intent e.target fault))

def settle (d : Document) (e : Edit) :
    Except StoreFault (Option Identifier) × Store → Except Abort EditOutcome × Store
  | (.ok id, s) => (.ok ⟨e, .ok id⟩, s)
  | (.error (.write fault), s) => s.skip d e (.write fault)
  | (.error (.read fault), s) => (.error (.read fault), s)

def applyEdit (s : Store) (d : Document) (e : Edit) : Except Abort EditOutcome × Store :=
  let s := s.note (.applying d.id e.intent e.target)
  match d.resolve e with
  | .error fault => s.skip d e (.reference fault)
  | .ok r =>
    match e.target, r with
    | .assessment, .entity t x =>
      match e.newRating? with
      | none => (.error .orderForRating, s)
      | some rating => settle d e (s.assess d e t x rating)
    | _, r => settle d e (s.perform d e r)

def applyEdits (s : Store) (d : Document) : List Edit → Except Abort (List EditOutcome) × Store
  | [] => (.ok [], s)
  | e :: rest =>
    match s.applyEdit d e with
    | (.error abort, s) => (.error abort, s)
    | (.ok o, s) =>
      match applyEdits s d rest with
      | (.error abort, s) => (.error abort, s)
      | (.ok os, s) => (.ok (o :: os), s)

/-- A compound command fails with the first of its failing parts; the others stay applied. -/
def compoundOutcome (c : Command) (parts : List EditOutcome) : Outcome :=
  let faults := parts.filterMap (·.fault?)
  match faults with
  | [] => ⟨c, .ok none, parts⟩
  | first :: _ => ⟨c, .error (.parts faults.length parts.length first), parts⟩

def singleOutcome (c : Command) (o : EditOutcome) : Outcome :=
  match o.settled with
  | .ok id => ⟨c, .ok id, []⟩
  | .error fault => ⟨c, .error (.edit fault), []⟩

def applyCommand (s : Store) (d : Document) (c : Command) : Except Abort Outcome × Store :=
  if c.target = .multiple then
    match s.applyEdits d c.parts with
    | (.error abort, s) => (.error abort, s)
    | (.ok parts, s) => (.ok (compoundOutcome c parts), s)
  else
    match s.applyEdit d c.toEdit with
    | (.error abort, s) => (.error abort, s)
    | (.ok o, s) => (.ok (singleOutcome c o), s)

def applyCommands (s : Store) (d : Document) : List Command → Except Abort (List Outcome) × Store
  | [] => (.ok [], s)
  | c :: rest =>
    match s.applyCommand d c with
    | (.error abort, s) => (.error abort, s)
    | (.ok o, s) =>
      match applyCommands s d rest with
      | (.error abort, s) => (.error abort, s)
      | (.ok os, s) => (.ok (o :: os), s)

end Store
end SafetyCase
