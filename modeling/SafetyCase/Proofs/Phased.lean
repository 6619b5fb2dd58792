import Mathlib
import SafetyCase.Proofs.Keeping
/-! The phase of every case is one of its kind, and so is that of every copy and every snapshot of it. This holds for
any number of editors, beside whom others write to the store directly, with any arguments, and take cases out of it. Only
a whole document that is put in from outside has to bring such a phase with it. -/
namespace SafetyCase

namespace Store

def Phased (s : Store) : Prop := ∀ d ∈ s.cases, d.Phased

variable {s : Store} {w : Write}

theorem writeOutage (s : Store) (w : Write) : (s.write w).2.outage = s.outage := by
  have form := written s w
  generalize s.write w = r at form
  cases form with
  | refused => rfl
  | torn => rfl
  | done _ outage => exact outage

theorem writePhased (brings : w.Phased) (phased : s.Phased) : (s.write w).2.Phased := by
  have form := written s w
  generalize s.write w = r at form
  cases form with
  | refused => exact phased
  | torn _ _ stored => exact everyPut phased (rebuiltPhased _ _ _ (phased _ stored))
  | @done c d _ cases _ stored phase =>
    unfold Phased
    rw [cases]
    exact everyPut phased (phase brings (phased c stored))

theorem readPhased (phased : s.Phased) {id : Identifier} {d : Document} (read : s.get id = .ok d) : d.Phased :=
  phased d (foundStored (getFound read)).1

theorem phasedKeeps : Keeps fun _ d => d.Phased where
  mono _ phased := phased
  new _ kind _ := kind.firstPhaseListed
  write {s w} phased brings := by
    refine writePhased (s := s) ?_ phased
    cases w with
    | replace d => exact brings d rfl
    | create | update | delete | reorder | rephase => trivial

theorem editOutage (s : Store) (held : Document) (e : Edit) : (s.applyEdit held e).2.outage = s.outage := by
  have kept {p p' : Store} (same : p'.quiet = p.quiet) : p'.outage = p.outage := by
    change p'.quiet.outage = p.quiet.outage
    rw [same]
  have form := carried s held e
  generalize s.applyEdit held e = r at form
  cases form with
  | idle _ _ same => exact kept same
  | @refused w _ _ _ _ _ _ same => exact (kept same).trans (writeOutage s w)
  | @applied w _ _ _ _ same => exact (kept same).trans (writeOutage s w)

theorem editPhased (s : Store) (held : Document) (e : Edit) (phased : s.Phased) : (s.applyEdit held e).2.Phased :=
  (editKeeps phasedKeeps phased held e).1

end Store

namespace Office

inductive Reached : Office → Prop where
  | fresh (now : Moment) (limits : Nat → Option Int) : Reached (fresh now limits)
  | step {o : Office} (reached : Reached o) (event : Event) : Reached (o.step event)
  | write {o : Office} (reached : Reached o) (w : Write) (brings : w.Phased) :
      Reached { o with store := (o.store.write w).2 }
  | drop {o : Office} (reached : Reached o) (id : Identifier) : Reached { o with store := o.store.drop id }

structure Phased (o : Office) : Prop where
  stored : o.store.Phased
  cached : ∀ session d, (o.sessions session).document = some d → d.Phased
  kept : ∀ slot held, o.slots slot = some held → held.document.Phased

variable {o : Office}

theorem reachedPhased (reached : Reached o) : o.Phased := by
  have all : o.All (fun _ d => d.Phased) [] := by
    induction reached with
    | fresh now limits => exact allFresh now limits
    | step _ event all => exact stepKeeps Store.phasedKeeps all event
    | @write o _ w brings all =>
      exact all.write Store.phasedKeeps (Store.writePhased brings all.stored) (Store.issuedByWrite o.store w)
    | drop _ id all => exact all.drop id
  exact ⟨all.stored, all.cached, all.kept⟩

end Office
end SafetyCase
