import Mathlib
import SafetyCase.Editor.Registry
import SafetyCase.Proofs.Endings
/-! Openings that fail. The snapshot of another case is dropped before the case is asked for, so it is lost even when
there is nothing to turn to; and a case in a phase that the gate does not know is taken over all the same, beside the
gate of the case before. -/
namespace SafetyCase
namespace Desk

variable {k k' : Desk} {id : Identifier} {failure : Failure}

theorem slotRelease (k : Desk) (id : Identifier) :
    (k.release id).slot = k.slot.filter (·.document.id = id) := by
  unfold release
  split
  · rename_i none
    simp [none]
  · rename_i held taken
    split <;> simp_all [Option.filter]

def heldAfter (k : Desk) (id : Identifier) : Option Document :=
  match k.store.get id with
  | .ok d => some d
  | .error _ => k.session.document

theorem openFailed (failed : k.openCase id = (.error failure, k')) : k'.store.cases = k.store.cases ∧
    k'.session = { k.session with document := k.heldAfter id } ∧ k'.slot = k.slot.filter (·.document.id = id) := by
  have form := opening k id
  generalize k.openCase id = r at form failed
  cases form with
  | unread missing =>
    cases failed
    exact ⟨casesRelease k id, by rw [sessionRelease, heldAfter, missing], slotRelease k id⟩
  | ungated read =>
    cases failed
    exact ⟨casesRelease k id, by rw [heldAfter, read], slotRelease k id⟩
  | loaded => cases failed

theorem slotKept (slot : Option Snapshot) (id : Identifier) :
    slot.filter (·.document.id = id) = slot ↔ ∀ held, slot = some held → held.document.id = id := by
  cases slot <;> simp [Option.filter_eq_some_iff]

end Desk

namespace Registry

theorem reachFailed {r r' : Registry} {s s' : Store} {id : Identifier} {failure : Failure}
    (failed : r.reach s id = (.error failure, r', s')) :
    r' = { r with slot := r.slot.filter (·.document.id = id) } ∧ s'.cases = s.cases := by
  unfold reach at failed
  split at failed
  · cases failed
  · split at failed
    · rename_i opened
      cases failed
      obtain ⟨cases, _, slot⟩ := Desk.openFailed opened
      exact ⟨by rw [slot]; rfl, cases⟩
    · cases failed

end Registry

/-- A failed opening keeps the stored cases, the gate, and a snapshot of the case that it was about. Any other snapshot is
gone, and the document in hand is the one that could not be gated, if it came that far. -/
theorem failedOpening (id : Identifier) (failure : Failure) :
    (∀ k k', Desk.openCase k id = (.error failure, k') → k'.store.cases = k.store.cases ∧
      k'.session = { k.session with document := k.heldAfter id } ∧
      k'.slot = k.slot.filter (·.document.id = id) ∧
      (k'.slot = k.slot ↔ ∀ held, k.slot = some held → held.document.id = id)) ∧
    ∀ r s r' s', Registry.reach r s id = (.error failure, r', s') → s'.cases = s.cases ∧
      r' = { r with slot := r.slot.filter (·.document.id = id) } ∧
      (r'.slot = r.slot ↔ ∀ held, r.slot = some held → held.document.id = id) := by
  constructor
  · intro k k' failed
    obtain ⟨cases, session, slot⟩ := Desk.openFailed failed
    refine ⟨cases, session, slot, ?_⟩
    rw [slot]
    exact Desk.slotKept k.slot id
  · intro r s r' s' failed
    obtain ⟨rfl, cases⟩ := Registry.reachFailed failed
    exact ⟨cases, rfl, Desk.slotKept r.slot id⟩

namespace Desk

def captured : Desk := blank.perform (.batch partly)

def unread : Desk := { captured with store := { captured.store with outage := { reads := true } } }

theorem failedOpeningOwn : ∃ failure k', unread.openCase (.numbered 1) = (.error failure, k') ∧
    unread.slot.isSome = true ∧ k'.slot = unread.slot := by
  have failed : (unread.openCase (.numbered 1)).1.toOption.isSome = false := by cbv
  have own : unread.slot.map (·.document.id) = some (.numbered 1) := by cbv
  obtain ⟨⟨failure | d, k'⟩, answer⟩ : ∃ a, unread.openCase (.numbered 1) = a := ⟨_, rfl⟩
  · obtain ⟨held, taken, named⟩ := Option.map_eq_some_iff.mp own
    refine ⟨failure, k', answer, by rw [taken]; rfl, ?_⟩
    refine (((failedOpening (.numbered 1) failure).1 unread k' answer).2.2.2).mpr fun other also => ?_
    cases taken.symm.trans also
    exact named
  · rw [answer] at failed
    contradiction

theorem failedOpeningDrops : ∃ failure k', captured.openCase (.numbered 9) = (.error failure, k') ∧
    captured.undoStatus.toOption.map (·.snapshot.isSome) = some true ∧
    k'.session.document = captured.session.document ∧
    k'.undoStatus.toOption.map (·.snapshot.isSome) = some false := by
  have failed : (captured.openCase (.numbered 9)).1.toOption.isSome = false := by cbv
  have after : (captured.openCase (.numbered 9)).2.undoStatus.toOption.map (·.snapshot.isSome) = some false := by cbv
  have same : (captured.openCase (.numbered 9)).2.session.document = captured.session.document := by cbv
  obtain ⟨⟨failure | d, k'⟩, answer⟩ : ∃ a, captured.openCase (.numbered 9) = a := ⟨_, rfl⟩
  · rw [answer] at after same
    exact ⟨failure, k', answer, by cbv, same, after⟩
  · rw [answer] at failed
    contradiction

end Desk
end SafetyCase
