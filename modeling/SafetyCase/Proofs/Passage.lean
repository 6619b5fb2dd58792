import Mathlib.Logic.Relation
import SafetyCase.Proofs.Endings
/-! Phases passed by one editor who alone writes its case. A gate may run ahead of the stored phase, or behind it, as
long as moves are kept from the store; but what lies between the two is complete on the stored case, so that
the move which is stored at last passes over complete phases only. -/
namespace SafetyCase
open Relation (ReflTransGen)

namespace Desk

/-- The editor works without failing to read its case again, or something happens elsewhere: to other cases, or to the
snapshot in the slot, which the sessions share. -/
inductive Turn (k : Desk) : Desk → Prop where
  | operation {op : Op} (read : k.signal op ≠ .unread) : Turn k (k.perform op)
  | elsewhere {s : Store} {slot : Option Snapshot}
      (own : ∀ held, k.session.document = some held → s.find? held.id = k.store.find? held.id) :
      Turn k { k with store := s, slot }

/-- The case is held as it is stored, and the phases from the stored one up to that of the gate are complete. -/
structure Walking (k : Desk) (held : Document) : Prop where
  opened : k.session.document = some held
  current : k.store.find? held.id = some held
  passed : ∀ i, held.kind.place? held.phase = some i → ∃ gate g, k.session.gate = some gate ∧
    gate.definitions = held.kind.phases ∧ held.kind.place? gate.current = some g ∧ held.Passed i g

variable {k k' : Desk} {held d d' : Document}

theorem loadedWalks {gate : PhaseGate} (found : k.store.find? held.id = some held)
    (gated : PhaseGate.forDocument held = .ok gate) (document : k.session.document = some held)
    (entered : k.session.gate = some gate) : Walking k held := by
  refine ⟨document, found, fun i here => ?_⟩
  obtain ⟨definitions, current⟩ := PhaseGate.startForm gated
  rw [if_neg (Kind.namedPlace here)] at current
  exact ⟨gate, i, entered, definitions, by rw [current, here], .here held i⟩

theorem ungatedWalks {fault : GateFault} (found : k.store.find? held.id = some held)
    (failed : PhaseGate.forDocument held = .error fault) (document : k.session.document = some held) :
    Walking k held := by
  refine ⟨document, found, fun i here => ?_⟩
  obtain ⟨gate, opens⟩ := PhaseGate.opens (List.isSome_idxOf?.mp (by rw [← Kind.place?, here]; rfl))
  rw [failed] at opens
  contradiction

theorem Walking.still (walking : Walking k held) (session : k'.session = k.session)
    (same : k'.store.find? held.id = k.store.find? held.id) : Walking k' held :=
  ⟨by rw [session, walking.opened], same.trans walking.current, by rw [session]; exact walking.passed⟩

theorem openWalks (walking : k.session.document = none ∨ ∃ held, Walking k held) (id : Identifier) :
    (k.openCase id).2.session.document = none ∨ ∃ held, Walking (k.openCase id).2 held := by
  have cases := casesRelease k id
  have form := opening k id
  generalize k.openCase id = r at form
  cases form with
  | unread =>
    refine walking.imp (fun shut => ?_) fun ⟨held, walking⟩ => ⟨held, ?_⟩
    · rw [sessionRelease, shut]
    · exact walking.still (sessionRelease k id) (Store.findSame cases held.id)
  | @ungated d fault read failed =>
    have found := Store.getFound read
    have named := (Store.foundStored found).2
    exact .inr ⟨d, ungatedWalks ((Store.findSame cases _).trans (named ▸ found)) failed rfl⟩
  | @loaded d gate read gated =>
    have found := Store.getFound read
    have named := (Store.foundStored found).2
    exact .inr ⟨d, loadedWalks ((Store.findSame cases _).trans (named ▸ found)) gated rfl rfl⟩

theorem closedStays (shut : k.session.document = none) {op : Op} (stays : op.stays = true) :
    (k.perform op).session = k.session := by
  cases op with
  | openCase id => contradiction
  | refresh => simp [perform, refresh, shut]
  | batch b => simp [perform, applyBatch, shut]
  | reorder target ids location => simp [perform, reorder, shut]
  | undo =>
    simp only [perform, undo, shut]
    split <;> rfl
  | advance => simp [perform, advance, move, shut]
  | jump phase => simp [perform, jump, move, shut]

theorem performWalks (walking : Walking k held) {op : Op} (stays : op.stays = true) (read : k.signal op ≠ .unread) :
    ∃ d, Walking (k.perform op) d := by
  have ends := performEnds walking.opened ⟨held, walking.current⟩ stays
  generalize k.signal op = signal at ends read
  generalize k.perform op = k' at ends
  cases ends with
  | silent cases session => exact ⟨held, walking.still session (Store.findSame cases held.id)⟩
  | kept cases before move session =>
    refine ⟨held, by rw [session, walking.opened], (Store.findSame cases _).trans walking.current, fun i here => ?_⟩
    obtain ⟨gate, g, entered, definitions, place, passed⟩ := walking.passed i here
    cases before.symm.trans entered
    obtain ⟨definitions, j, place, further⟩ := move.passes definitions place
    exact ⟨_, j, by rw [session], definitions, place, passed.trans further⟩
  | reread again =>
    cases again with
    | @loaded d gate found gated document entered =>
      have named := (Store.foundStored found).2
      exact ⟨d, loadedWalks (named ▸ found) gated document entered⟩
    | @ungated d fault found failed document =>
      have named := (Store.foundStored found).2
      exact ⟨d, ungatedWalks (named ▸ found) failed document⟩
    | unread => exact absurd rfl read

theorem turnWalks (walking : k.session.document = none ∨ ∃ held, Walking k held) (turn : Turn k k') :
    k'.session.document = none ∨ ∃ held, Walking k' held := by
  cases turn with
  | elsewhere own => exact walking.imp_right fun ⟨held, walking⟩ => ⟨held, walking.still rfl (own held walking.opened)⟩
  | @operation op read =>
    cases stays : op.stays with
    | false =>
      cases op with
      | openCase id => exact openWalks walking id
      | _ => contradiction
    | true =>
      rcases walking with shut | ⟨held, walking⟩
      · exact .inl (by rw [closedStays shut stays, shut])
      · exact .inr (performWalks walking stays read)

theorem runWalks (walking : k.session.document = none ∨ ∃ held, Walking k held) (run : ReflTransGen Turn k k') :
    k'.session.document = none ∨ ∃ held, Walking k' held := by
  induction run with
  | refl => exact walking
  | tail _ turn ih => exact turnWalks ih turn

theorem moveWrites {step : PhaseGate → Document → Except GateFault PhaseGate} (opened : k.session.document = some held)
    (moves : ∀ g d, PhaseGate.Move g d (step g d)) : (k.move step).2.store.cases = k.store.cases ∨
      ∃ gate moved d, k.session.gate = some gate ∧ gate.Move held (.ok moved) ∧ k.store.find? held.id = some d ∧
        (k.move step).2.store.cases = (k.store.put (k.store.atPhase d moved.current)).cases := by
  unfold move
  split
  · rename_i gate d before here
    cases opened.symm.trans here
    have move := moves gate held
    generalize step gate held = r at move
    rcases r with fault | moved
    · exact .inl rfl
    · have call := Store.phaseChange k.store held.id moved.current
      unfold persist
      dsimp only
      generalize k.store.setPhase held.id moved.current = r at call
      cases call with
      | refused fault => cases fault <;> exact .inl rfl
      | @done d found known =>
        exact .inr ⟨gate, moved, d, before, move, found, afterRefreshCases (fun _ _ => rfl) _⟩
  · exact .inl rfl

theorem phasesPassed {start : Desk} {op : Op} {i j : Nat} (shut : start.session.document = none)
    (run : ReflTransGen Turn start k) (moves : op = .advance ∨ ∃ phase, op = .jump phase)
    (opened : k.session.document = some held) (before : k.store.find? held.id = some d)
    (after : (k.perform op).store.find? held.id = some d') (here : d.kind.place? d.phase = some i)
    (there : d.kind.place? d'.phase = some j) : d.Passed i j ∧ d'.Passed i j := by
  rcases runWalks (.inl shut) run with shut | ⟨c, walking⟩
  · rw [shut] at opened
    contradiction
  · cases opened.symm.trans walking.opened
    cases before.symm.trans walking.current
    have writes : (k.perform op).store.cases = k.store.cases ∨ ∃ gate moved d, k.session.gate = some gate ∧
        gate.Move held (.ok moved) ∧ k.store.find? held.id = some d ∧
        (k.perform op).store.cases = (k.store.put (k.store.atPhase d moved.current)).cases := by
      rcases moves with rfl | ⟨phase, rfl⟩
      · exact moveWrites opened PhaseGate.advanceMove
      · exact moveWrites opened fun g d => g.jumpMove d phase
    rcases writes with same | ⟨gate, moved, c, entered, move, found, same⟩
    · cases after.symm.trans ((Store.findSame same held.id).trans before)
      cases here.symm.trans there
      exact ⟨.here held i, .here held i⟩
    · cases before.symm.trans found
      have stored := (Store.findSame same held.id).trans (Store.findPutSame k.store (k.store.atPhase held moved.current))
      cases after.symm.trans stored
      obtain ⟨gate', g, again, definitions, place, passed⟩ := walking.passed i here
      cases entered.symm.trans again
      obtain ⟨_, j', goal, further⟩ := move.passes definitions place
      cases there.symm.trans goal
      have passed := passed.trans further
      refine ⟨passed, fun n p above below phase => ?_⟩
      -- The move writes the phase and the time only, and no phase asks for these.
      have listed : p ∈ held.kind.phases := List.mem_of_getElem? phase
      have same : p.complete (k.store.atPhase held moved.current) = p.complete held :=
        held.kind.completeRephased held moved.current k.store.now p listed
      rw [same]
      exact passed n p above below phase

def unopened : Desk := { blank with session := {} }

def stepNamed : Envelope := { commands := [worded "ADD" "STEP" [] [("activity", .text "Load")]] }

def hazardNamed : Envelope :=
  { commands := [worded "ADD" "HAZARD" [("stepIndex", .int 0)]
      [("label", .text "Crushing"), ("existingControls", .list [.text "Rails"])]] }

def atDemo : Desk := unopened.perform (.openCase (.numbered 1))

def described : Desk := (atDemo.perform (.batch stepNamed)).perform (.batch hazardNamed)

def unmoved : Desk := { described with store := { described.store with outage := { phaseMoves := true } } }

def ahead : Desk :=
  let kept := unmoved.perform .advance
  { kept with store := { kept.store with outage := {} } }

theorem phasesPassedTogether : ReflTransGen Turn unopened ahead ∧ ∃ d d',
    ahead.store.find? (.numbered 1) = some d ∧ (ahead.perform .advance).store.find? (.numbered 1) = some d' ∧
    d.phase = "PROCESS_STEPS" ∧ d'.phase = "RISK_RATING" ∧ d.Passed 0 2 ∧ d'.Passed 0 2 := by
  have opens : Turn unopened atDemo := .operation (by decide +kernel)
  have step : Turn atDemo (atDemo.perform (.batch stepNamed)) := .operation (by decide +kernel)
  have hazard : Turn (atDemo.perform (.batch stepNamed)) described := .operation (by decide +kernel)
  have stops : Turn described unmoved := .elsewhere fun _ _ => rfl
  have kept : Turn unmoved (unmoved.perform .advance) := .operation (by decide +kernel)
  have run : ReflTransGen Turn unopened ahead :=
    (((((ReflTransGen.single opens).tail step).tail hazard).tail stops).tail kept).tail (.elsewhere fun _ _ => rfl)
  have held : ahead.session.document.map (·.id) = some (.numbered 1) := by decide +kernel
  have start : (ahead.store.find? (.numbered 1)).map (fun d => (d.kind, d.phase)) =
      some (.riskAssessment, "PROCESS_STEPS") := by decide +kernel
  have goal : ((ahead.perform .advance).store.find? (.numbered 1)).map (·.phase) = some "RISK_RATING" := by
    decide +kernel
  obtain ⟨c, cached, named⟩ := Option.map_eq_some_iff.mp held
  obtain ⟨d, before, here⟩ := Option.map_eq_some_iff.mp start
  obtain ⟨d', after, there⟩ := Option.map_eq_some_iff.mp goal
  obtain ⟨kind, here⟩ := Prod.mk.inj here
  have passed := phasesPassed (i := 0) (j := 2) rfl run (.inl rfl) cached (named ▸ before) (named ▸ after)
    (by rw [kind, here]; decide) (by rw [kind, there]; decide)
  exact ⟨run, d, d', before, after, here, there, passed⟩

end Desk
end SafetyCase
