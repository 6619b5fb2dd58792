import SafetyCase.Editor.Desk
/-! Reordering by hand and moves between phases. Neither touches the undo slot. A phase that the store does
not accept is kept by the gate alone. -/
namespace SafetyCase

structure PhaseMove where
  id : Identifier
  previous : String
  phase : String
  persisted : Bool
  deriving DecidableEq

namespace Desk

def reorderCommand (target : Target) (ids : List String) (location : Location) : Command :=
  .single { intent := .reorder, target, location, payload := some (.order ids) }

def reorder (k : Desk) (target : Target) (ids : List String) (location : Location) : Except Failure Outcome × Desk :=
  match k.session.document with
  | none => (.error .noCaseOpen, k)
  | some d =>
    match k.store.applyCommand d (reorderCommand target ids location) with
    | (.error abort, store) => (.error (.ofAbort abort), { k with store })
    | (.ok o, store) => afterRefresh { k with store } fun _ k => (.ok o, k)

def phaseStates (k : Desk) : Except Failure (List PhaseState) :=
  match k.session.gate, k.session.document with
  | some gate, some d => .ok (gate.states d)
  | _, _ => .error .noCaseOpen

def persist (k : Desk) (d : Document) (previous : String) (moved : PhaseGate) : Except Failure PhaseMove × Desk :=
  let phase := moved.current
  let k := { k with session := { k.session with gate := some moved } }
  match k.store.setPhase d.id phase with
  | (.error (.write fault), store) =>
    (.ok ⟨d.id, previous, phase, false⟩, ({ k with store } : Desk).note (.phaseKept d.id phase fault))
  | (.error (.read fault), store) => (.error (.read fault), { k with store })
  | (.ok _, store) =>
    afterRefresh { k with store } fun fresh k =>
      (.ok ⟨fresh.id, previous, phase, true⟩, k.note (.phaseMoved fresh.id previous phase))

def move (k : Desk) (step : PhaseGate → Document → Except GateFault PhaseGate) : Except Failure PhaseMove × Desk :=
  match k.session.gate, k.session.document with
  | some gate, some d =>
    match step gate d with
    | .error fault => (.error (.gate fault), k)
    | .ok moved => k.persist d gate.current moved
  | _, _ => (.error .noCaseOpen, k)

def advance (k : Desk) : Except Failure PhaseMove × Desk := k.move PhaseGate.advance

def jump (k : Desk) (phase : String) : Except Failure PhaseMove × Desk := k.move fun gate d => gate.jump d phase

end Desk
end SafetyCase
