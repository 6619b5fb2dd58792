import SafetyCase.Editor.Desk
/-! Undo: the snapshot is put back as a whole. The slot is emptied once the restored case has been read
again; until then a failed undo can be tried anew. A snapshot of another case is dropped instead. -/
namespace SafetyCase

structure UndoStatus where
  id : Identifier
  snapshot : Option Snapshot
  deriving DecidableEq

namespace Desk

def restore (k : Desk) (held : Snapshot) : Except Failure Document × Desk :=
  match k.store.replaceCase held.document with
  | (.error fault, store) =>
    (.error (.restore fault), ({ k with store } : Desk).note (.restoreFailed held.document.id fault))
  | (.ok _, store) =>
    afterRefresh { k with store } fun d k => (.ok d, k.clear.note (.undone d.id held.summary))

def undo (k : Desk) : Except Failure Document × Desk :=
  match k.slot with
  | none => (.error .nothingToUndo, k)
  | some held =>
    match k.session.document with
    | none => (.error .noCaseOpen, k)
    | some d => if held.document.id = d.id then k.restore held else (.error .nothingToUndo, k.clear)

def undoStatus (k : Desk) : Except Failure UndoStatus :=
  match k.session.document with
  | none => .error .noCaseOpen
  | some d => .ok ⟨d.id, k.slot.filter (·.document.id = d.id)⟩

end Desk
end SafetyCase
