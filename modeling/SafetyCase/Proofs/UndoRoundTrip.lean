import Mathlib
import SafetyCase.Proofs.Frame
import SafetyCase.Proofs.Gates
/-! Undo after a batch. However the batch ended, and whatever the editor does before the undo goes through, the
case comes back as it was before the batch. Only a new snapshot and a turn to another case are excluded; undos
that fail, phase moves, reorderings and failing reads are not. -/
namespace SafetyCase.Desk
open Relation (ReflTransGen)

/-- An operation that neither takes a snapshot nor turns to another case. -/
inductive Quiet (k : Desk) : Op → Prop where
  | refresh : Quiet k .refresh
  | reorder (target : Target) (ids : List String) (location : Location) : Quiet k (.reorder target ids location)
  | advance : Quiet k .advance
  | jump (phase : String) : Quiet k (.jump phase)
  | batch {b : Envelope} (idles : k.captures b = false) : Quiet k (.batch b)
  | undo {failure : Failure} (fails : k.undo.1 = .error failure) : Quiet k .undo
  | reopen {held : Document} (opened : k.session.document = some held) : Quiet k (.openCase held.id)

/-- What may happen between a batch and the undo that goes through. -/
inductive Interlude (k : Desk) : Desk → Prop where
  | operation {op : Op} (quiet : k.Quiet op) : Interlude k (k.perform op)
  | clock (now : Moment) : Interlude k { k with store := { k.store with now } }
  | outage (parts : Outage) : Interlude k { k with store := { k.store with outage := parts } }

/-- The slot holds the document as it was when the store was `s`, and no other case has changed since. -/
structure Awaiting (s : Store) (d : Document) (k : Desk) : Prop where
  kept : ∃ held, k.slot = some held ∧ held.document = d
  holds : k.Holds d.id
  touches : s.Touches d.id k.store

inductive Undone (k : Desk) : Document → Desk → Prop where
  | back {held current : Document} {kept : Snapshot} {gate : PhaseGate} {k' : Desk}
      (opened : k.session.document = some held) (taken : k.slot = some kept) (own : kept.document.id = held.id)
      (found : k.store.find? kept.document.id = some current) (kind : kept.document.kind = current.kind)
      (gated : PhaseGate.forDocument (k.store.restored kept.document current) = .ok gate)
      (cases : k'.store.cases = (k.store.put (k.store.restored kept.document current)).cases)
      (session : k'.session =
        { k.session with document := some (k.store.restored kept.document current), gate := some gate })
      (slot : k'.slot = none) : Undone k (k.store.restored kept.document current) k'

variable {s : Store} {k k' : Desk} {b : Envelope} {d c : Document}

theorem Awaiting.stays (awaiting : Awaiting s d k) (stays : Stays d.id k k') : Awaiting s d k' :=
  ⟨stays.slot ▸ awaiting.kept, stays.holds, awaiting.touches.trans stays.touches⟩

theorem Awaiting.stages (awaiting : Awaiting s d k) (stages : Stages k k') : Awaiting s d k' :=
  awaiting.stays (stagesStay awaiting.holds stages)

theorem capturedAwaits (opened : k.session.document = some d) (summary : Option String) :
    Awaiting k.store d (k.capture d summary) := by
  refine ⟨?_, ⟨d, by rwa [sessionCapture], rfl⟩, .sameCases (casesCapture k d summary)⟩
  unfold capture
  exact ⟨_, rfl, rfl⟩

theorem batchAwaits (opened : k.session.document = some d) (captures : k.captures b = true) :
    Awaiting k.store d (k.applyBatch b).2 := by
  have form := batch k b
  generalize k.applyBatch b = r at form
  cases form with
  | closed shut => simp [opened] at shut
  | idle _ _ _ idles => simp [captures] at idles
  | applied here tells _ =>
    cases opened.symm.trans here
    exact (capturedAwaits opened b.summary).stages (applyAcceptedStages opened tells).2

theorem idleAwaits (awaiting : Awaiting s d k) (idles : k.captures b = false) : Awaiting s d (k.applyBatch b).2 := by
  have form := batch k b
  generalize k.applyBatch b = r at form
  cases form with
  | closed => exact awaiting
  | idle n => exact awaiting.stages (.single (.noted n))
  | applied _ _ captures => simp [captures] at idles

theorem undoEnds (awaiting : Awaiting s d k) :
    (∃ c, k.undo.1 = .ok c ∧ Undone k c k.undo.2) ∨ (∃ failure, k.undo.1 = .error failure ∧ Stages k k.undo.2) := by
  obtain ⟨kept, taken, rfl⟩ := awaiting.kept
  obtain ⟨held, opened, named⟩ := awaiting.holds
  have own := named.symm
  have restored : Stages k _ := .single (.restored opened taken own)
  have call := Store.replacement k.store kept.document
  unfold undo
  simp only [taken, opened, own, if_true]
  unfold restore
  generalize k.store.replaceCase kept.document = r at restored call
  cases call with
  | refused fault => exact .inr ⟨_, rfl, restored.tail (.noted _)⟩
  | @done current found kind =>
    -- the snapshot is stored; the slot is only emptied once the case could be read again
    dsimp only at restored ⊢
    have stages := restored.trans (refreshStages _)
    have form := refreshed { k with
      store := (k.store.put (k.store.restored kept.document current)).note (.replaced kept.document.id) }
    unfold afterRefresh
    generalize Desk.refresh _ = r at form stages ⊢
    cases form with
    | closed shut => simp [opened] at shut
    | unread => exact .inr ⟨_, rfl, stages⟩
    | ungated => exact .inr ⟨_, rfl, stages⟩
    | @loaded _ d gate here read gated =>
      have named : held.id = (k.store.restored kept.document current).id := named
      cases opened.symm.trans here
      have again := Store.getFound read
      rw [named] at again
      have same := (Store.findPutSame k.store (k.store.restored kept.document current)).symm.trans again
      cases same
      exact .inl ⟨_, rfl, .back opened taken own found kind gated rfl rfl rfl⟩

theorem reopenStages {held : Document} (opened : k.session.document = some held)
    (own : ∀ kept, k.slot = some kept → kept.document.id = held.id) : Stages k (k.openCase held.id).2 := by
  have here : k.release held.id = k := by
    unfold release
    split
    · rfl
    · rename_i kept taken
      rw [if_pos (own kept taken)]
  unfold openCase
  rw [here]
  dsimp only
  split
  · exact .refl
  · rename_i d read
    exact ReflTransGen.head (.reloaded opened read) (loadStages k d)

theorem quietAwaits (awaiting : Awaiting s d k) {op : Op} (quiet : k.Quiet op) : Awaiting s d (k.perform op) := by
  cases quiet with
  | refresh => exact awaiting.stages (refreshStages k)
  | reorder target ids location => exact awaiting.stages (reorderStages k target ids location)
  | advance => exact awaiting.stages (moveStages k _)
  | jump phase => exact awaiting.stages (moveStages k _)
  | batch idles => exact idleAwaits awaiting idles
  | undo fails =>
    rcases undoEnds awaiting with ⟨c, returned, _⟩ | ⟨_, _, stages⟩
    · cases fails.symm.trans returned
    · exact awaiting.stages stages
  | reopen opened =>
    refine awaiting.stages (reopenStages opened fun kept taken => ?_)
    obtain ⟨held, here, rfl⟩ := awaiting.kept
    obtain ⟨c, cached, named⟩ := awaiting.holds
    cases taken.symm.trans here
    cases opened.symm.trans cached
    exact named.symm

theorem interludeAwaits (awaiting : Awaiting s d k) (run : ReflTransGen Interlude k k') : Awaiting s d k' := by
  induction run with
  | refl => exact awaiting
  | tail _ turn ih =>
    cases turn with
    | operation quiet => exact quietAwaits ih quiet
    | clock now => exact ⟨ih.kept, ih.holds, ih.touches.trans (.sameCases rfl)⟩
    | outage parts => exact ⟨ih.kept, ih.holds, ih.touches.trans (.sameCases rfl)⟩

theorem undoneRestores (awaiting : Awaiting s d k) (before : ∃ d', s.find? d.id = some d' ∧ d.Continues d')
    (undone : Undone k c k') :
    k'.store.find? d.id = some c ∧ c = { d with updatedAt := c.updatedAt } ∧
      (∀ id, id ≠ d.id → k'.store.find? id = s.find? id) ∧ k'.session.document = some c ∧
      (∃ gate, k'.session.gate = some gate ∧ gate.current = if d.phase = "" then d.kind.firstPhase else d.phase) ∧
      k'.slot = none := by
  cases undone with
  | @back held current kept gate _ opened taken own found kind gated cases session slot =>
    obtain ⟨_, here, rfl⟩ := awaiting.kept
    cases taken.symm.trans here
    obtain ⟨d', before, became⟩ := before
    obtain ⟨d, now, on⟩ := awaiting.touches.itself _ before
    cases found.symm.trans now
    have stored (id : Identifier) :
        k'.store.find? id = (k.store.put (k.store.restored kept.document current)).find? id := by
      rw [Store.find?, Store.find?, cases]
    refine ⟨?_, ?_, fun id other => ?_, by rw [session], ⟨gate, by rw [session], (PhaseGate.startForm gated).2⟩, slot⟩
    · exact (stored _).trans (Store.findPutSame k.store (k.store.restored kept.document current))
    · simp [Store.restored, (became.trans on).created]
    · rw [stored, Store.findPutOther _ _ (by exact other)]
      exact awaiting.touches.others id other

theorem undoReturns (awaiting : Awaiting s d k) (before : s.find? d.id = some d) (known : d.phase ∈ d.kind.phaseNames)
    (writes : k.store.outage.replacements = false) (reads : k.store.outage.reads = false) : ∃ c, k.undo.1 = .ok c := by
  obtain ⟨kept, taken, rfl⟩ := awaiting.kept
  obtain ⟨held, opened, named⟩ := awaiting.holds
  obtain ⟨current, found, on⟩ := awaiting.touches.itself _ before
  obtain ⟨gate, gated⟩ := PhaseGate.opens (d := k.store.restored kept.document current) known
  have replaced : k.store.replaceCase kept.document = (.ok (k.store.restored kept.document current),
      (k.store.put (k.store.restored kept.document current)).note (.replaced kept.document.id)) := by
    simp [Store.replaceCase, writes, Store.onCase, found, on.kind, Store.restored]
  have read : ((k.store.put (k.store.restored kept.document current)).note (.replaced kept.document.id)).get
      kept.document.id = .ok (k.store.restored kept.document current) :=
    Store.getStored reads (Store.findPutSame k.store (k.store.restored kept.document current))
  refine ⟨k.store.restored kept.document current, ?_⟩
  simp [undo, restore, afterRefresh, refresh, load, taken, opened, named, replaced, read, gated]

theorem undoRoundTrip {k after k' : Desk} {b : Envelope} {d c : Document} (opened : k.session.document = some d)
    (current : k.store.find? d.id = some d) (captures : k.captures b = true)
    (run : ReflTransGen Interlude (k.perform (.batch b)) after) (returned : after.undo = (.ok c, k')) :
    (k'.store.find? d.id = some c ∧ c = { d with updatedAt := c.updatedAt }) ∧
      (∀ id, id ≠ d.id → k'.store.find? id = k.store.find? id) ∧ k'.session.document = some c ∧
      (∃ gate, k'.session.gate = some gate ∧ gate.current = if d.phase = "" then d.kind.firstPhase else d.phase) ∧
      k'.slot = none ∧ k'.undo = (.error .nothingToUndo, k') := by
  have awaiting := interludeAwaits (batchAwaits opened captures) run
  rcases undoEnds awaiting with ⟨c', answer, undone⟩ | ⟨failure, answer, _⟩
  · rw [returned] at answer undone
    cases answer
    obtain ⟨stored, same, others, cached, gate, slot⟩ := undoneRestores awaiting ⟨d, current, .refl d⟩ undone
    exact ⟨⟨stored, same⟩, others, cached, gate, slot, by rw [undo, show k'.slot = none from slot]⟩
  · rw [returned] at answer
    contradiction

def refusing : Desk :=
  let tried := blank.perform (.batch partly)
  { tried with store := { tried.store with outage := { replacements := true } } }

def recovered : Desk :=
  let refused := refusing.perform .undo
  { refused with store := { refused.store with outage := {} } }

theorem undoRoundTripRetried : ∃ c k', ReflTransGen Interlude (blank.perform (.batch partly)) recovered ∧
    recovered.store.cases.map (·.steps.length) = [1] ∧ recovered.undo = (.ok c, k') ∧
    k'.store.find? (.numbered 1) = some { blankCase with updatedAt := c.updatedAt } := by
  have fails : refusing.undo.1 = .error (.restore (.write .unavailable)) := by cbv
  have run : ReflTransGen Interlude (blank.perform (.batch partly)) recovered :=
    ((ReflTransGen.single (.outage _)).tail (.operation (.undo fails))).tail (.outage _)
  have done : recovered.undo.1.toOption.isSome = true := by cbv
  obtain ⟨⟨_ | c, k'⟩, returned⟩ : ∃ r, recovered.undo = r := ⟨_, rfl⟩
  · rw [returned] at done
    contradiction
  · obtain ⟨⟨stored, same⟩, _⟩ :=
      undoRoundTrip (k := blank) (b := partly) (d := blankCase) rfl (by cbv) (by cbv) run returned
    exact ⟨c, k', run, by cbv, returned, by rw [← same]; exact stored⟩

end SafetyCase.Desk
