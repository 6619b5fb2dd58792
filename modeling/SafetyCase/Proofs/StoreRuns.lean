import Mathlib
import SafetyCase.Proofs.Arrangement
import SafetyCase.Proofs.Writes
/-! Runs of store calls with any arguments, refused ones included. The only restriction is on whole documents:
what is put back was handed out by the store before. The clock and the outages of the store change at will
between two calls. -/
namespace SafetyCase
namespace Store

inductive Call where
  | createCase (kind : Kind) (title : String)
  | getCase (id : Identifier)
  | listCases
  | createEntity (id : Identifier) (t : EntityType) (parent : Option Identifier) (position : Option Int)
      (data : List (String × Value))
  | updateEntity (id : Identifier) (t : EntityType) (entity : Identifier) (changes : List (String × Value))
  | deleteEntity (id : Identifier) (t : EntityType) (entity : Identifier) (policy : DeletePolicy)
  | reorderEntities (id : Identifier) (t : EntityType) (parent : Option Identifier) (ids : List Identifier)
  | setPhase (id : Identifier) (phase : String)
  | replaceCase (n : Nat)
  | clock (now : Moment)
  | outage (o : Outage)

structure Ledger where
  store : Store
  returned : List Document := []

namespace Ledger

def keep (l : Ledger) : Except α Document × Store → Ledger
  | (.ok d, s) => ⟨s, l.returned ++ [d]⟩
  | (.error _, s) => ⟨s, l.returned⟩

/-- A replacement names its document by the number under which the store handed it out. -/
def step (l : Ledger) : Call → Ledger
  | .createCase kind title =>
    l.keep (α := StoreFault) (.ok (l.store.createCase kind title).1, (l.store.createCase kind title).2)
  | .getCase id => l.keep (l.store.get id, l.store)
  | .listCases => { l with returned := l.returned ++ l.store.list }
  | .createEntity id t parent position data => { l with store := (l.store.createEntity id t parent position data).2 }
  | .updateEntity id t entity changes => { l with store := (l.store.updateEntity id t entity changes).2 }
  | .deleteEntity id t entity policy => { l with store := (l.store.deleteEntity id t entity policy).2 }
  | .reorderEntities id t parent ids => { l with store := (l.store.reorderEntities id t parent ids).2 }
  | .setPhase id phase => l.keep (l.store.setPhase id phase)
  | .replaceCase n =>
    match l.returned[n]? with
    | none => l
    | some d => l.keep (l.store.replaceCase d)
  | .clock now => { l with store := { l.store with now } }
  | .outage o => { l with store := { l.store with outage := o } }

def run (l : Ledger) (calls : List Call) : Ledger := calls.foldl step l

def fresh (now : Moment) : Ledger := ⟨{ now }, []⟩

end Ledger

def Regular (s : Store) : Prop := ∀ d ∈ s.cases, d.Regular s.issued

section
variable {s : Store} {id : Identifier} {t : EntityType}

theorem Regular.put (regular : s.Regular) {d : Document} (changed : d.Regular s.issued) : (s.put d).Regular :=
  everyPut regular changed

theorem Regular.save (regular : s.Regular) {d : Document} (changed : d.Regular s.issued) : (s.save d).Regular :=
  regular.put (changed.reheaded (fun t => by cases t <;> rfl) changed.phase)

theorem regularNewCase (s : Store) (kind : Kind) (title : String) : (s.newCase kind title).Regular (s.issued + 1) :=
  ⟨⟨fun t => by cases t <;> exact Entity.placedEmpty _, kind.firstPhaseListed⟩,
    fun t id listed => by cases t <;> simp [Document.idsOf, Document.collection, newCase] at listed⟩

theorem regularCreation {parent : Option Identifier} {position : Option Int} {data : List (String × Value)}
    {r : Except StoreFault Entity × Store} (call : Creation s id t parent position data r) (regular : s.Regular) :
    r.2.Regular ∧ s.issued ≤ r.2.issued := by
  cases call with
  | refused => exact ⟨regular, Nat.le_refl _⟩
  | done answer found _ built =>
    have stored := regular _ (foundStored found).1
    have before : s.issue.Regular := fun c old => (regular c old).mono (Nat.le_succ _)
    exact ⟨before.save (Document.regularInsert stored (Entity.idBuild built) _), Nat.le_succ _⟩

theorem regularUpdate {entity : Identifier} {changes : List (String × Value)}
    {r : Except StoreFault Entity × Store} (call : Update s id t entity changes r) (regular : s.Regular) :
    r.2.Regular ∧ s.issued ≤ r.2.issued := by
  have modified {d : Document} {e : Entity} (found : s.find? id = some d) (member : d.find? t entity = some e) :
      (d.modifyEntity t entity fun _ => (e.patch t changes).1).Regular s.issued :=
    Document.regularModify (regular d (foundStored found).1) member (Entity.idPatch t changes e)
      (Entity.parentPatch t changes e) (Entity.orderPatch t changes e)
  cases call with
  | refused => exact ⟨regular, Nat.le_refl _⟩
  | done found member _ => exact ⟨regular.save (modified found member), Nat.le_refl _⟩
  | partway found member _ => exact ⟨regular.put (modified found member), Nat.le_refl _⟩

theorem regularDeletion {entity : Identifier} {policy : DeletePolicy} {r : Except StoreFault Unit × Store}
    (call : Deletion s id t entity policy r) (regular : s.Regular) : r.2.Regular ∧ s.issued ≤ r.2.issued := by
  cases call with
  | refused => exact ⟨regular, Nat.le_refl _⟩
  | done found removed =>
    exact ⟨regular.save (Document.regularRemove (regular _ (foundStored found).1) removed), Nat.le_refl _⟩

theorem regularReordering {parent : Option Identifier} {ids : List Identifier} {r : Except StoreFault Unit × Store}
    (call : Reordering s id t parent ids r) (regular : s.Regular) : r.2.Regular ∧ s.issued ≤ r.2.issued := by
  cases call with
  | refused => exact ⟨regular, Nat.le_refl _⟩
  | done found moved =>
    exact ⟨regular.save (Document.regularReorder (regular _ (foundStored found).1) moved), Nat.le_refl _⟩

end

namespace Ledger

structure Regular (l : Ledger) : Prop where
  stored : l.store.Regular
  returned : ∀ d ∈ l.returned, d.Regular l.store.issued

theorem Regular.write {l : Ledger} (regular : l.Regular) {s : Store} (changed : s.Regular)
    (le : l.store.issued ≤ s.issued) : ({ l with store := s } : Ledger).Regular :=
  ⟨changed, fun d old => (regular.returned d old).mono le⟩

theorem Regular.hand {l : Ledger} (regular : l.Regular) {ds : List Document}
    (handed : ∀ d ∈ ds, d.Regular l.store.issued) : ({ l with returned := l.returned ++ ds } : Ledger).Regular := by
  refine ⟨regular.stored, fun d listed => ?_⟩
  rcases List.mem_append.mp listed with old | new
  · exact regular.returned d old
  · exact handed d new

theorem Regular.handOne {l : Ledger} (regular : l.Regular) {d : Document} (handed : d.Regular l.store.issued) :
    ({ l with returned := l.returned ++ [d] } : Ledger).Regular :=
  regular.hand fun c listed => by rw [List.mem_singleton.mp listed]; exact handed

theorem stepRegular {l : Ledger} (regular : l.Regular) (call : Call) : (l.step call).Regular := by
  cases call with
  | createCase kind title =>
    have handed := regularNewCase l.store kind title
    have before : l.store.issue.Regular := fun c old => (regular.stored c old).mono (Nat.le_succ _)
    exact (regular.write (before.put handed) (Nat.le_succ _)).handOne handed
  | getCase id =>
    simp only [step, get]
    split
    · exact regular
    · split
      · rename_i d found
        exact regular.handOne (regular.stored d (foundStored found).1)
      · exact regular
  | listCases =>
    exact regular.hand fun d listed => regular.stored d (List.mem_mergeSort.mp listed)
  | createEntity id t parent position data =>
    obtain ⟨changed, le⟩ := regularCreation (creation l.store id t parent position data) regular.stored
    exact regular.write changed le
  | updateEntity id t entity changes =>
    obtain ⟨changed, le⟩ := regularUpdate (update l.store id t entity changes) regular.stored
    exact regular.write changed le
  | deleteEntity id t entity policy =>
    obtain ⟨changed, le⟩ := regularDeletion (deletion l.store id t entity policy) regular.stored
    exact regular.write changed le
  | reorderEntities id t parent ids =>
    obtain ⟨changed, le⟩ := regularReordering (reordering l.store id t parent ids) regular.stored
    exact regular.write changed le
  | setPhase id phase =>
    have call := phaseChange l.store id phase
    simp only [step]
    generalize l.store.setPhase id phase = r at call
    cases call with
    | refused => exact regular
    | @done d found known =>
      have moved : (l.store.atPhase d phase).Regular l.store.issued :=
        (regular.stored d (foundStored found).1).reheaded (fun t => by cases t <;> rfl) known
      exact (regular.write (regular.stored.put moved) (Nat.le_refl _)).handOne moved
  | replaceCase n =>
    simp only [step]
    split
    · exact regular
    · rename_i d handed
      have call := replacement l.store d
      generalize l.store.replaceCase d = r at call
      cases call with
      | refused => exact regular
      | @done current found kind =>
        have given := regular.returned d (List.mem_of_getElem? handed)
        have back : (l.store.restored d current).Regular l.store.issued :=
          given.reheaded (fun t => by cases t <;> rfl) given.phase
        have changed : ((l.store.put (l.store.restored d current)).note (.replaced d.id)).Regular :=
          regular.stored.put back
        exact (regular.write changed (Nat.le_refl _)).handOne back
  | clock now => exact ⟨regular.stored, regular.returned⟩
  | outage o => exact ⟨regular.stored, regular.returned⟩

theorem runRegular {l : Ledger} (regular : l.Regular) (calls : List Call) : (l.run calls).Regular := by
  induction calls generalizing l with
  | nil => exact regular
  | cons call rest ih => exact ih (stepRegular regular call)

theorem freshRegular (now : Moment) : (fresh now).Regular := by
  constructor <;> intro d listed <;> cases listed

theorem runOrdered (now : Moment) (calls : List Call) : ∀ d ∈ ((fresh now).run calls).store.cases, d.Ordered :=
  fun d stored => ((runRegular (freshRegular now) calls).stored d stored).toOrdered

def restoring : List Call :=
  [.createCase .riskAssessment "Demo", .createEntity (.numbered 1) .step none none [("activity", .data (.text "Load"))],
    .createEntity (.numbered 1) .step none (some (-3)) [("activity", .data (.text "Unload"))], .getCase (.numbered 1),
    .deleteEntity (.numbered 1) .step (.numbered 3) .cascade,
    .updateEntity (.numbered 1) .step (.numbered 2) [("order_index", .data (.int 7))], .replaceCase 1]

theorem restoringOrdered : ∃ d ∈ ((fresh ⟨0⟩).run restoring).store.cases,
    (d.steps.map fun e => (e.id, e.order)) = [(.numbered 2, 1), (.numbered 3, 0)] ∧ d.Ordered := by
  have places : ((fresh ⟨0⟩).run restoring).store.cases.map (fun d => d.steps.map fun e => (e.id, e.order)) =
      [[(.numbered 2, 1), (.numbered 3, 0)]] := by cbv
  obtain ⟨d, stored, same⟩ := List.mem_map.mp (places ▸ List.mem_singleton_self _)
  exact ⟨d, stored, same, runOrdered ⟨0⟩ restoring d stored⟩

end Ledger
end Store
end SafetyCase
