import SafetyCase.Phase.Definition
import SafetyCase.Store.Basic
import SafetyCase.Tree.Insert
import SafetyCase.Tree.Patch
import SafetyCase.Tree.Remove
import SafetyCase.Tree.Reorder
/-! The writes of the store. Every call gives its answer together with the store afterwards, so that what a
failing call leaves behind is visible: a partial update that ends at a forbidden field keeps the
fields set before it. -/
namespace SafetyCase.Store

def newCase (s : Store) (kind : Kind) (title : String) : Document :=
  { id := s.freshId, kind, title, phase := kind.firstPhase, createdAt := s.now, updatedAt := s.now }

def createCase (s : Store) (kind : Kind) (title : String) : Document × Store :=
  let d := s.newCase kind title
  (d, s.issue.put d)

def onCase (s : Store) (id : Identifier) (write : Document → Except StoreFault α × Store) :
    Except StoreFault α × Store :=
  match s.find? id with
  | none => (.error (.read (.unknownCase id)), s)
  | some d => write d

/-- A parent is looked for only where the kind gives the type one. -/
def lacksParent? (d : Document) (t : EntityType) (parent : Option Identifier) : Option EntityType :=
  match d.kind.parentType? t with
  | none => none
  | some p => if (parent.bind (d.find? p)).isSome then none else some p

def createEntity (s : Store) (id : Identifier) (t : EntityType) (parent : Option Identifier) (position : Option Int)
    (data : List (String × Value)) : Except StoreFault Entity × Store :=
  s.onCase id fun d =>
    match lacksParent? d t parent with
    | some p => (.error (.write (.missingParent p parent)), s)
    | none =>
      match Entity.build t s.freshId parent data with
      | .error fault => (.error (.write (.tree fault)), s)
      | .ok e =>
        let changed := d.insert t e position
        (.ok (((changed.collection t).getLast?).getD e), s.issue.save changed)

def updateEntity (s : Store) (id : Identifier) (t : EntityType) (entity : Identifier)
    (changes : List (String × Value)) : Except StoreFault Entity × Store :=
  s.onCase id fun d =>
    match d.find? t entity with
    | none => (.error (.write (.tree (.missing t entity))), s)
    | some e =>
      let patched := e.patch t changes
      let changed := d.modifyEntity t entity fun _ => patched.1
      match patched.2 with
      | .ok () => (.ok patched.1, s.save changed)
      | .error fault => (.error (.write (.tree fault)), s.put changed)

def deleteEntity (s : Store) (id : Identifier) (t : EntityType) (entity : Identifier) (policy : DeletePolicy) :
    Except StoreFault Unit × Store :=
  s.onCase id fun d =>
    match d.remove d.kind t entity policy with
    | .error fault => (.error (.write (.tree fault)), s)
    | .ok (removed, changed) => (.ok (), (s.save changed).note (.deleted id t entity removed.length))

def reorderEntities (s : Store) (id : Identifier) (t : EntityType) (parent : Option Identifier)
    (ids : List Identifier) : Except StoreFault Unit × Store :=
  s.onCase id fun d =>
    match d.reorder t parent ids with
    | .error fault => (.error (.write (.tree fault)), s)
    | .ok changed => (.ok (), s.save changed)

def replaceCase (s : Store) (d : Document) : Except StoreFault Document × Store :=
  if s.outage.replacements then (.error (.write .unavailable), s)
  else s.onCase d.id fun current =>
    if d.kind = current.kind then
      let replacement := { d with createdAt := current.createdAt, updatedAt := s.now }
      (.ok replacement, (s.put replacement).note (.replaced d.id))
    else (.error (.write (.kindMismatch current.kind d.kind)), s)

def setPhase (s : Store) (id : Identifier) (phase : String) : Except StoreFault Document × Store :=
  if s.outage.phaseMoves then (.error (.write .unavailable), s)
  else s.onCase id fun d =>
    if d.kind.phaseNames.contains phase then
      let moved := { d with phase, updatedAt := s.now }
      (.ok moved, s.put moved)
    else (.error (.write (.notAPhase phase d.kind)), s)

end SafetyCase.Store
