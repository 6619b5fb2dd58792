import SafetyCase.Editor.Failure
/-! An editor at work: the store, the single undo slot, and a session that holds a copy of one case with its
phase gate. The copy is only ever replaced as a whole, by what the store returns. -/
namespace SafetyCase

structure Snapshot where
  document : Document
  summary : Option String
  takenAt : Moment
  deriving DecidableEq

structure Session where
  document : Option Document := none
  gate : Option PhaseGate := none
  limit : Option Int := none

structure Desk where
  store : Store
  slot : Option Snapshot := none
  session : Session := {}

namespace Desk

def note (k : Desk) (n : Notice) : Desk := { k with store := k.store.note n }

def clear (k : Desk) : Desk := { k with slot := none }

def capture (k : Desk) (d : Document) (summary : Option String) : Desk :=
  let noted := match k.slot with
    | some held => k.note (.snapshotReplaced held.document.id)
    | none => k
  { noted with slot := some ⟨d, summary, k.store.now⟩ }

def release (k : Desk) (id : Identifier) : Desk :=
  match k.slot with
  | none => k
  | some held =>
    if held.document.id = id then k else (k.note (.snapshotDropped held.document.id)).clear

/-- Takes over a document. A phase that the gate does not know leaves the gate as it was. -/
def load (k : Desk) (d : Document) : Except Failure Document × Desk :=
  let holding := { k with session := { k.session with document := some d } }
  match PhaseGate.forDocument d with
  | .error fault => (.error (.gate fault), holding)
  | .ok gate => (.ok d, { holding with session := { holding.session with gate := some gate } })

def openCase (k : Desk) (id : Identifier) : Except Failure Document × Desk :=
  let k := k.release id
  match k.store.get id with
  | .error fault => (.error (.read fault), k)
  | .ok d => k.load d

def refresh (k : Desk) : Except Failure Document × Desk :=
  match k.session.document with
  | none => (.error .noCaseOpen, k)
  | some held =>
    match k.store.get held.id with
    | .error fault => (.error (.refresh held.id fault), k.note (.refreshFailed held.id fault))
    | .ok d => k.load d

def afterRefresh (k : Desk) (next : Document → Desk → Except Failure α × Desk) : Except Failure α × Desk :=
  match k.refresh with
  | (.error failure, k) => (.error failure, k)
  | (.ok d, k) => next d k

@[simp] theorem casesNote (k : Desk) (n : Notice) : (k.note n).store.cases = k.store.cases := rfl
@[simp] theorem slotNote (k : Desk) (n : Notice) : (k.note n).slot = k.slot := rfl
@[simp] theorem sessionNote (k : Desk) (n : Notice) : (k.note n).session = k.session := rfl
@[simp] theorem slotClear (k : Desk) : k.clear.slot = none := rfl

theorem sessionRelease (k : Desk) (id : Identifier) : (k.release id).session = k.session := by
  unfold release
  split
  · rfl
  · split <;> rfl

theorem casesRelease (k : Desk) (id : Identifier) : (k.release id).store.cases = k.store.cases := by
  unfold release
  split
  · rfl
  · split <;> rfl

end Desk
end SafetyCase
