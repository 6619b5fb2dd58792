import SafetyCase.Proofs.Completion
import SafetyCase.Proofs.Gates
/-! How an operation leaves the editor's copy of its case. Whatever writes ends by reading the case again; what does
not read it again has written nothing. The one exception is a phase that the store refuses, which the gate
takes up without it. -/
namespace SafetyCase

inductive Signal where
  | silent
  | reread
  | unread
  | kept
  deriving DecidableEq

namespace Signal

def ofAnswer (heard : α → Signal) : Except Failure α → Signal
  | .ok a => heard a
  | .error (.refresh _ _) => unread
  | .error _ => silent

def ofBatch (r : BatchResult) : Signal := if r.outcomes.isEmpty then silent else reread

def ofMove (m : PhaseMove) : Signal := if m.persisted then reread else kept

end Signal

namespace Desk

def Op.stays : Op → Bool
  | .openCase _ => false
  | _ => true

def signal (k : Desk) : Op → Signal
  | .openCase id => .ofAnswer (fun _ => .reread) (k.openCase id).1
  | .refresh => .ofAnswer (fun _ => .reread) k.refresh.1
  | .batch b => .ofAnswer .ofBatch (k.applyBatch b).1
  | .undo => .ofAnswer (fun _ => .reread) k.undo.1
  | .reorder target ids location => .ofAnswer (fun _ => .reread) (k.reorder target ids location).1
  | .advance => .ofAnswer .ofMove k.advance.1
  | .jump phase => .ofAnswer .ofMove (k.jump phase).1

/-- The case has been asked for once more. A document in an unknown phase is taken over without a gate of its own. -/
inductive Reread (held : Document) (k : Desk) : Signal → Prop where
  | loaded {d : Document} {gate : PhaseGate} (found : k.store.find? held.id = some d)
      (gated : PhaseGate.forDocument d = .ok gate) (document : k.session.document = some d)
      (entered : k.session.gate = some gate) : Reread held k .reread
  | ungated {d : Document} {fault : GateFault} (found : k.store.find? held.id = some d)
      (failed : PhaseGate.forDocument d = .error fault) (document : k.session.document = some d) :
      Reread held k .silent
  | unread (document : k.session.document = some held) : Reread held k .unread

inductive Ending (k : Desk) (held : Document) (k' : Desk) : Signal → Prop where
  | silent (cases : k'.store.cases = k.store.cases) (session : k'.session = k.session) : Ending k held k' .silent
  | kept {gate moved : PhaseGate} (cases : k'.store.cases = k.store.cases) (before : k.session.gate = some gate)
      (move : gate.Move held (.ok moved)) (session : k'.session = { k.session with gate := some moved }) :
      Ending k held k' .kept
  | reread {signal : Signal} (again : Reread held k' signal) : Ending k held k' signal

inductive Opening (k : Desk) (id : Identifier) : Except Failure Document × Desk → Prop where
  | unread {fault : ReadFault} (missing : k.store.get id = .error fault) :
      Opening k id (.error (.read fault), k.release id)
  | ungated {d : Document} {fault : GateFault} (read : k.store.get id = .ok d)
      (failed : PhaseGate.forDocument d = .error fault) :
      Opening k id
        (.error (.gate fault), { k.release id with session := { k.session with document := some d } })
  | loaded {d : Document} {gate : PhaseGate} (read : k.store.get id = .ok d)
      (gated : PhaseGate.forDocument d = .ok gate) :
      Opening k id
        (.ok d, { k.release id with session := { k.session with document := some d, gate := some gate } })

variable {k : Desk} {held d : Document} {b : Envelope} {heard : α → Signal}

theorem getRelease (k : Desk) (id other : Identifier) : (k.release id).store.get other = k.store.get other := by
  unfold release
  split
  · rfl
  · split <;> rfl

theorem opening (k : Desk) (id : Identifier) : Opening k id (k.openCase id) := by
  unfold openCase
  dsimp only
  rw [getRelease]
  split
  · rename_i missing
    exact .unread missing
  · rename_i d read
    unfold load
    rw [sessionRelease]
    dsimp only
    split
    · rename_i failed
      exact .ungated read failed
    · rename_i gated
      exact .loaded read gated

theorem refreshRereads (opened : k.session.document = some held) :
    Reread held k.refresh.2 (.ofAnswer (fun _ => .reread) k.refresh.1) := by
  have form := refreshed k
  generalize k.refresh = r at form
  cases form with
  | closed shut => simp [opened] at shut
  | unread => exact .unread opened
  | ungated here read failed =>
    cases opened.symm.trans here
    exact .ungated (Store.getFound read) failed rfl
  | loaded here read gated =>
    cases opened.symm.trans here
    exact .loaded (Store.getFound read) gated rfl rfl

theorem Reread.onward {k' : Desk} {signal : Signal} (again : Reread held k signal) (session : k'.session = k.session)
    (cases : k'.store.cases = k.store.cases) : Reread held k' signal := by
  cases again with
  | loaded here gated document entered =>
    exact .loaded ((Store.findSame cases _).trans here) gated (by rw [session, document]) (by rw [session, entered])
  | ungated here failed document =>
    exact .ungated ((Store.findSame cases _).trans here) failed (by rw [session, document])
  | unread document => exact .unread (by rw [session, document])

theorem afterRefreshRereads {next : Document → Desk → Except Failure α × Desk} (opened : k.session.document = some held)
    (after : ∀ d k, ∃ a, (next d k).1 = .ok a ∧ heard a = .reread ∧ (next d k).2.session = k.session ∧
      (next d k).2.store.cases = k.store.cases) :
    Reread held (k.afterRefresh next).2 (.ofAnswer heard (k.afterRefresh next).1) := by
  have again := refreshRereads opened
  unfold afterRefresh
  generalize k.refresh = r at again
  obtain ⟨failure | d, k'⟩ := r
  · cases failure <;> exact again
  · obtain ⟨a, answer, reread, session, cases⟩ := after d k'
    dsimp only
    rw [answer, Signal.ofAnswer, reread]
    exact again.onward session cases

theorem batchEnds (opened : k.session.document = some held) (stored : ∃ d, k.store.find? held.id = some d) :
    Ending k held (k.applyBatch b).2 (.ofAnswer .ofBatch (k.applyBatch b).1) := by
  have form := batch k b
  generalize k.applyBatch b = r at form
  cases form with
  | closed shut => simp [opened] at shut
  | idle n _ empty =>
    simp only [Signal.ofAnswer, Signal.ofBatch, empty]
    exact .silent rfl rfl
  | applied here tells captures =>
    cases opened.symm.trans here
    obtain ⟨d, found⟩ := stored
    have found := (Store.findSame (casesCapture k held b.summary) held.id).trans found
    obtain ⟨os, applied⟩ : ∃ os, ((k.capture held b.summary).store.applyCommands held (k.check held b).accepted).1 =
        .ok os := Store.commandsReturn ⟨d, found⟩ (batchFits tells)
    have length := Store.outcomesLength applied
    unfold applyAccepted
    dsimp only
    generalize (k.capture held b.summary).store.applyCommands held (k.check held b).accepted = r at applied
    obtain ⟨abort | os', s⟩ := r
    · contradiction
    · cases applied
      refine .reread (afterRefreshRereads (by simpa using opened) fun fresh k' => ⟨_, rfl, ?_, rfl, rfl⟩)
      have accepted : (k.check held b).accepted ≠ [] := by
        rintro none
        simp [Desk.captures, opened, none] at captures
      have outcomes : os ≠ [] := fun none => accepted (List.length_eq_zero_iff.mp (by rw [← length, none]; rfl))
      simp [Signal.ofBatch, outcomes]

theorem undoEnding (opened : k.session.document = some held) :
    Ending k held k.undo.2 (.ofAnswer (fun _ => .reread) k.undo.1) := by
  unfold undo
  split
  · exact .silent rfl rfl
  · simp only [opened]
    split
    · rename_i kept _ own
      have call := Store.replacement k.store kept.document
      unfold restore
      generalize k.store.replaceCase kept.document = r at call
      cases call with
      | refused => exact .silent rfl rfl
      | done => exact .reread (afterRefreshRereads opened fun fresh k' => ⟨_, rfl, rfl, rfl, rfl⟩)
    · exact .silent rfl rfl

theorem reorderEnds (opened : k.session.document = some held) (stored : ∃ d, k.store.find? held.id = some d)
    (target : Target) (ids : List String) (location : Location) :
    Ending k held (k.reorder target ids location).2
      (.ofAnswer (fun _ => .reread) (k.reorder target ids location).1) := by
  obtain ⟨d, found⟩ := stored
  have ends : (∃ o, (k.store.applyCommand held (reorderCommand target ids location)).1 = .ok o) ∨
      (k.store.applyCommand held (reorderCommand target ids location)).1 = .error .orderForRating ∧
        (k.store.applyCommand held (reorderCommand target ids location)).2.cases = k.store.cases := by
    unfold Store.applyCommand
    split
    · exact .inl ⟨_, rfl⟩
    · rcases Store.editReturns found (reorderCommand target ids location).toEdit with ⟨o, done⟩ | ⟨_, _, stopped, same⟩
      · generalize k.store.applyEdit held (reorderCommand target ids location).toEdit = r at done
        obtain ⟨abort | o', s⟩ := r
        · contradiction
        · exact .inl ⟨_, rfl⟩
      · generalize k.store.applyEdit held (reorderCommand target ids location).toEdit = r at stopped same
        obtain ⟨abort | o', s⟩ := r
        · cases stopped
          exact .inr ⟨rfl, same⟩
        · contradiction
  simp only [reorder, opened]
  generalize k.store.applyCommand held (reorderCommand target ids location) = r at ends
  obtain ⟨abort | o, s⟩ := r
  · rcases ends with ⟨o, done⟩ | ⟨stopped, same⟩
    · contradiction
    · cases stopped
      exact .silent same rfl
  · exact .reread (afterRefreshRereads opened fun fresh k' => ⟨_, rfl, rfl, rfl, rfl⟩)

theorem moveEnds {step : PhaseGate → Document → Except GateFault PhaseGate} (opened : k.session.document = some held)
    (stored : ∃ d, k.store.find? held.id = some d) (moves : ∀ g d, PhaseGate.Move g d (step g d)) :
    Ending k held (k.move step).2 (.ofAnswer .ofMove (k.move step).1) := by
  unfold move
  split
  · rename_i gate d before here
    cases opened.symm.trans here
    have move := moves gate held
    generalize step gate held = r at move
    rcases r with fault | moved
    · exact .silent rfl rfl
    · obtain ⟨d, found⟩ := stored
      have reaches := Store.phaseReaches found moved.current
      have call := Store.phaseChange k.store held.id moved.current
      unfold persist
      dsimp only
      generalize k.store.setPhase held.id moved.current = r at reaches call
      cases call with
      | refused fault =>
        cases fault with
        | read fault => exact absurd rfl (reaches fault)
        -- The gate has moved, and the answer is one of success, yet the phase is not in the store.
        | write fault => exact .kept rfl before move rfl
      | done => exact .reread (afterRefreshRereads opened fun fresh k' => ⟨_, rfl, rfl, rfl, rfl⟩)
  · exact .silent rfl rfl

theorem performEnds (opened : k.session.document = some held) (stored : ∃ d, k.store.find? held.id = some d) {op : Op}
    (stays : op.stays = true) : Ending k held (k.perform op) (k.signal op) := by
  cases op with
  | openCase id => contradiction
  | refresh => exact .reread (refreshRereads opened)
  | batch b => exact batchEnds opened stored
  | undo => exact undoEnding opened
  | reorder target ids location => exact reorderEnds opened stored target ids location
  | advance => exact moveEnds opened stored PhaseGate.advanceMove
  | jump phase => exact moveEnds opened stored fun g d => g.jumpMove d phase

theorem performTouches (opened : k.session.document = some held) {op : Op} (stays : op.stays = true) :
    k.store.Touches held.id (k.perform op).store := by
  have holds : k.Holds held.id := ⟨held, opened, rfl⟩
  cases op with
  | openCase id => contradiction
  | refresh => exact (stagesStay holds (refreshStages k)).touches
  | reorder target ids location => exact (stagesStay holds (reorderStages k target ids location)).touches
  | advance => exact (stagesStay holds (moveStages k _)).touches
  | jump phase => exact (stagesStay holds (moveStages k _)).touches
  | batch b =>
    have form := batch k b
    simp only [perform]
    generalize k.applyBatch b = r at form
    cases form with
    | closed => exact .refl _ _
    | idle n => exact .sameCases rfl
    | applied here tells captures =>
      cases opened.symm.trans here
      have captured : (k.capture held b.summary).Holds held.id := ⟨held, by rwa [sessionCapture], rfl⟩
      have stages := (applyAcceptedStages opened tells).2
      exact (Store.Touches.sameCases (casesCapture k held b.summary)).trans (stagesStay captured stages).touches
  | undo =>
    simp only [perform, undo]
    split
    · exact .refl _ _
    · rename_i kept _
      simp only [opened]
      split
      · rename_i own
        have touches := own ▸ Store.restoreTouches k.store kept.document
        unfold restore
        generalize k.store.replaceCase kept.document = r at touches
        obtain ⟨fault | _, s⟩ := r
        · exact touches.trans (.sameCases rfl)
        · exact touches.trans (.sameCases (afterRefreshCases (fun _ _ => rfl) _))
      · exact .refl _ _

end Desk
end SafetyCase
