import Mathlib.Logic.Relation
import SafetyCase.Editor.Moves
import SafetyCase.Editor.Undo
import SafetyCase.Proofs.EditRuns
import SafetyCase.Proofs.Soundness
/-! Operations of the editor, taken apart into stages. Most stages leave the undo slot alone and stay with the
case; the others are listed by themselves. Which stages an operation goes through is said once here, and
whatever every stage keeps is kept by all operations, failing ones included. -/
namespace SafetyCase.Desk
open Relation (ReflTransGen)

/-- A stage that leaves the slot alone and stays with the case. -/
inductive Stage (k : Desk) : Desk → Prop where
  | noted (n : Notice) : Stage k (k.note n)
  | edited {held : Document} {e : Edit} (opened : k.session.document = some held) (suits : e.Suits held) :
      Stage k { k with store := (k.store.applyEdit held e).2 }
  | restored {held : Document} {kept : Snapshot} (opened : k.session.document = some held)
      (taken : k.slot = some kept) (own : kept.document.id = held.id) :
      Stage k { k with store := (k.store.replaceCase kept.document).2 }
  | rephased {held : Document} (opened : k.session.document = some held) (phase : String) :
      Stage k { k with store := (k.store.setPhase held.id phase).2 }
  | gated (g : PhaseGate) : Stage k { k with session := { k.session with gate := some g } }
  | reloaded {held d : Document} (opened : k.session.document = some held) (read : k.store.get held.id = .ok d) :
      Stage k { k with session := { k.session with document := some d } }

/-- A stage that changes the slot, or turns to another case. -/
inductive Shift (k : Desk) : Desk → Prop where
  | captured {held : Document} (opened : k.session.document = some held) (summary : Option String) :
      Shift k (k.capture held summary)
  | cleared : Shift k k.clear
  | turned {id : Identifier} {d : Document} (read : k.store.get id = .ok d) :
      Shift k { k with session := { k.session with document := some d } }

abbrev Stages : Desk → Desk → Prop := ReflTransGen Stage

abbrev Path : Desk → Desk → Prop := ReflTransGen fun k k' => Stage k k' ∨ Shift k k'

variable {k : Desk} {d held : Document}

theorem Stages.path {k' : Desk} (stages : Stages k k') : Path k k' :=
  ReflTransGen.mono (fun _ _ stage => .inl stage) _ _ stages

theorem Shift.path {k' : Desk} (shift : Shift k k') : Path k k' := .single (.inr shift)

inductive Refresh (k : Desk) : Except Failure Document × Desk → Prop where
  | closed (shut : k.session.document = none) : Refresh k (.error .noCaseOpen, k)
  | unread {held : Document} {fault : ReadFault} (opened : k.session.document = some held)
      (failed : k.store.get held.id = .error fault) :
      Refresh k (.error (.refresh held.id fault), k.note (.refreshFailed held.id fault))
  | ungated {held d : Document} {fault : GateFault} (opened : k.session.document = some held)
      (read : k.store.get held.id = .ok d) (failed : PhaseGate.forDocument d = .error fault) :
      Refresh k (.error (.gate fault), { k with session := { k.session with document := some d } })
  | loaded {held d : Document} {gate : PhaseGate} (opened : k.session.document = some held)
      (read : k.store.get held.id = .ok d) (gated : PhaseGate.forDocument d = .ok gate) :
      Refresh k (.ok d, { k with session := { k.session with document := some d, gate := some gate } })

theorem refreshed (k : Desk) : Refresh k k.refresh := by
  unfold refresh
  split
  · rename_i shut
    exact .closed shut
  · rename_i opened
    split
    · rename_i failed
      exact .unread opened failed
    · rename_i read
      unfold load
      dsimp only
      split
      · rename_i failed
        exact .ungated opened read failed
      · rename_i gated
        exact .loaded opened read gated

theorem loadStages (k : Desk) (d : Document) :
    Stages { k with session := { k.session with document := some d } } (k.load d).2 := by
  unfold load
  dsimp only
  split
  · exact .refl
  · rename_i gate _
    exact .single (.gated gate)

theorem refreshCases (k : Desk) : k.refresh.2.store.cases = k.store.cases := by
  have form := refreshed k
  generalize k.refresh = r at form
  cases form <;> rfl

theorem refreshStages (k : Desk) : Stages k k.refresh.2 := by
  have form := refreshed k
  generalize k.refresh = r at form
  cases form with
  | closed => exact .refl
  | unread => exact .single (.noted _)
  | ungated opened read => exact .single (.reloaded opened read)
  | @loaded _ d gate opened read =>
    have taken : Stages k { k with session := { k.session with document := some d } } := .single (.reloaded opened read)
    exact taken.tail (.gated gate)

theorem afterRefreshAlong {R : Desk → Desk → Prop} (stages : ∀ {k k'}, Stages k k' → R k k')
    (trans : ∀ {k k' k''}, R k k' → R k' k'' → R k k'') {next : Document → Desk → Except Failure α × Desk}
    (after : ∀ d k, R k (next d k).2) (k : Desk) : R k (k.afterRefresh next).2 := by
  have read := stages (refreshStages k)
  unfold afterRefresh
  generalize k.refresh = r at read
  obtain ⟨failure | d, k'⟩ := r
  · exact read
  · exact trans read (after d k')

theorem afterRefreshStages {next : Document → Desk → Except Failure α × Desk} (after : ∀ d k, Stages k (next d k).2)
    (k : Desk) : Stages k (k.afterRefresh next).2 :=
  afterRefreshAlong (fun stages => stages) (fun first second => first.trans second) after k

theorem afterRefreshCases {next : Document → Desk → Except Failure α × Desk}
    (after : ∀ d k, (next d k).2.store.cases = k.store.cases) (k : Desk) :
    (k.afterRefresh next).2.store.cases = k.store.cases := by
  have read := refreshCases k
  unfold afterRefresh
  generalize k.refresh = r at read
  obtain ⟨failure | d, k'⟩ := r
  · exact read
  · exact (after d k').trans read

theorem afterRefreshDone {next : Document → Desk → Except Failure α × Desk} {a : α} {k' : Desk}
    (done : k.afterRefresh next = (.ok a, k')) : ∃ d k₁, k.refresh = (.ok d, k₁) ∧ next d k₁ = (.ok a, k') := by
  unfold afterRefresh at done
  generalize k.refresh = r at done
  obtain ⟨failure | d, k₁⟩ := r
  · cases done
  · exact ⟨d, k₁, rfl, done⟩

theorem editsStages (opened : k.session.document = some held) {edits : List Edit}
    (suits : ∀ e ∈ edits, e.Suits held) : (∀ s ∈ k.store.passing held edits, Stages k { k with store := s }) ∧
      Stages k { k with store := (k.store.applyEdits held edits).2 } :=
  Store.editsKeep (P := fun s => Stages k { k with store := s })
    (fun _ e listed before => before.tail (.edited opened (suits e listed))) .refl

theorem reorderStages (k : Desk) (target : Target) (ids : List String) (location : Location) :
    Stages k (k.reorder target ids location).2 := by
  unfold reorder
  split
  · exact .refl
  · rename_i d opened
    have leaves : ∀ e ∈ (reorderCommand target ids location).leaves, e.Suits d := by
      intro e listed
      unfold Command.leaves at listed
      split at listed
      · contradiction
      · rw [List.mem_singleton.mp listed]
        exact Edit.orderSuits target ids location
    have edited := (editsStages opened leaves).2
    rw [Store.commandAsEdits] at edited
    generalize k.store.applyCommand d (reorderCommand target ids location) = r at edited
    obtain ⟨abort | o, s⟩ := r
    · exact edited
    · exact edited.trans (afterRefreshStages (fun _ _ => .refl) _)

theorem moveStages (k : Desk) (step : PhaseGate → Document → Except GateFault PhaseGate) :
    Stages k (k.move step).2 := by
  unfold move
  split
  · rename_i gate d _ opened
    split
    · exact .refl
    · rename_i moved _
      let turned : Desk := { k with session := { k.session with gate := some moved } }
      have gated : Stages k turned := .single (.gated moved)
      have rephased := gated.tail (Stage.rephased (k := turned) opened moved.current)
      unfold persist
      dsimp only [turned] at rephased ⊢
      generalize k.store.setPhase d.id moved.current = r at rephased
      obtain ⟨(_ | _) | _, s⟩ := r
      · exact rephased
      · exact rephased.tail (.noted _)
      · exact rephased.trans (afterRefreshStages (fun _ _ => .single (.noted _)) _)
  · exact .refl

end SafetyCase.Desk
