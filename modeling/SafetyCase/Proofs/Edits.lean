import SafetyCase.Editor.Apply
import SafetyCase.Proofs.Resolution
import SafetyCase.Proofs.Writes
/-! What applying one edit can do, said once: nothing, or one of five writes to the case that the editor's own
document names. The journal is left out of account; it is the only thing that a failing edit touches. -/
namespace SafetyCase

def Edit.updates? (e : Edit) (held : Document) : Option (List (String × Value)) :=
  if e.target = .assessment then e.newRating?.map fun v => [((e.slot held).toAttribute.name, v)]
  else if e.intent = .delete then none
  else some e.values

namespace Store

def quiet (s : Store) : Store := { s with journal := [] }

theorem casesOfQuiet {s s' : Store} (same : s'.quiet = s.quiet) : s'.cases = s.cases := by
  change s'.quiet.cases = s.quiet.cases
  rw [same]

theorem issuedOfQuiet {s s' : Store} (same : s'.quiet = s.quiet) : s'.issued = s.issued := by
  change s'.quiet.issued = s.quiet.issued
  rw [same]

theorem nowOfQuiet {s s' : Store} (same : s'.quiet = s.quiet) : s'.now = s.now := by
  change s'.quiet.now = s.quiet.now
  rw [same]

def Failing (r : Except Abort EditOutcome) : Prop := ∀ o, r = .ok o → o.fault?.isSome = true

inductive EditStep (s : Store) (held : Document) (e : Edit) : Except Abort EditOutcome × Store → Prop where
  | left {r : Except Abort EditOutcome} {s' : Store} (failing : Failing r) (same : s'.quiet = s.quiet) :
      EditStep s held e (r, s')
  | created {t : EntityType} {parent : Option Identifier} {position : Option Int} {d : Document} {x : Entity}
      {id : Identifier} {s' : Store} (addressed : held.resolve e = .ok (.placement t parent position))
      (found : s.find? held.id = some d) (parented : lacksParent? d t parent = none)
      (built : Entity.build t s.freshId parent (e.newValues t) = .ok x)
      (same : s'.quiet = (s.issue.save (d.insert t x position)).quiet) :
      EditStep s held e (.ok ⟨e, .ok (some id)⟩, s')
  | updated {t : EntityType} {x y : Entity} {d : Document} {changes : List (String × Value)} {id : Identifier}
      {s' : Store} (addressed : held.resolve e = .ok (.entity t y)) (set : e.updates? held = some changes)
      (found : s.find? held.id = some d) (member : d.find? t y.id = some x)
      (patched : (x.patch t changes).2 = .ok ())
      (same : s'.quiet = (s.save (d.modifyEntity t y.id fun _ => (x.patch t changes).1)).quiet) :
      EditStep s held e (.ok ⟨e, .ok (some id)⟩, s')
  | partway {t : EntityType} {x y : Entity} {d : Document} {changes : List (String × Value)} {fault : TreeFault}
      {r : Except Abort EditOutcome} {s' : Store} (failing : Failing r)
      (addressed : held.resolve e = .ok (.entity t y)) (set : e.updates? held = some changes)
      (found : s.find? held.id = some d) (member : d.find? t y.id = some x)
      (stopped : (x.patch t changes).2 = .error fault)
      (same : s'.quiet = (s.put (d.modifyEntity t y.id fun _ => (x.patch t changes).1)).quiet) :
      EditStep s held e (r, s')
  | deleted {t : EntityType} {y : Entity} {d : Document} {out : List Entity × Document} {id : Identifier}
      {s' : Store} (addressed : held.resolve e = .ok (.entity t y)) (found : s.find? held.id = some d)
      (removed : d.remove d.kind t y.id (deletePolicy held.kind t) = .ok out)
      (same : s'.quiet = (s.save out.2).quiet) : EditStep s held e (.ok ⟨e, .ok (some id)⟩, s')
  | reordered {t : EntityType} {parent : Option Identifier} {ids : List Identifier} {d d' : Document} {s' : Store}
      (addressed : held.resolve e = .ok (.ordering t parent ids)) (found : s.find? held.id = some d)
      (moved : d.reorder t parent ids = .ok d') (same : s'.quiet = (s.save d').quiet) :
      EditStep s held e (.ok ⟨e, .ok none⟩, s')

variable {s : Store} {held : Document} {e : Edit}

theorem assessedEntity {r : Resolution} (rates : e.target = .assessment) (addressed : held.resolve e = .ok r) :
    ∃ t x, r = .entity t x := by
  cases Document.resolved addressed with
  | assessed => exact ⟨_, _, rfl⟩
  | existing => exact ⟨_, _, rfl⟩
  | placed plain => exact absurd rates plain
  | ordered plain => exact absurd rates plain

theorem failingAbort (abort : Abort) : Failing (.error abort) := fun o same => by contradiction

theorem failingFault (e : Edit) (fault : EditFault) : Failing (.ok ⟨e, .error fault⟩) := fun o same => by
  cases same
  rfl

theorem settleFailing (held : Document) (e : Edit) (fault : StoreFault) (s : Store) :
    Failing (settle held e (.error fault, s)).1 ∧ (settle held e (.error fault, s)).2.quiet = s.quiet := by
  cases fault with
  | read fault => exact ⟨failingAbort _, rfl⟩
  | write fault => exact ⟨failingFault e _, rfl⟩

theorem updateStep {t : EntityType} {y : Entity} {changes : List (String × Value)}
    (addressed : held.resolve e = .ok (.entity t y)) (set : e.updates? held = some changes) :
    EditStep s held e (settle held e (match s.updateEntity held.id t y.id changes with
      | (.ok _, s) => (.ok (some y.id), s)
      | (.error fault, s) => (.error fault, s))) := by
  have call := update s held.id t y.id changes
  generalize s.updateEntity held.id t y.id changes = r at call
  cases call with
  | refused fault => exact .left (settleFailing held e fault s).1 (settleFailing held e fault s).2
  | done found member patched => exact .updated addressed set found member patched rfl
  | @partway d x fault found member stopped =>
    have ending := settleFailing held e (.write (.tree fault))
      (s.put (d.modifyEntity t y.id fun _ => (x.patch t changes).1))
    exact .partway ending.1 addressed set found member stopped ending.2

theorem performStep {r : Resolution} (addressed : held.resolve e = .ok r) (plain : e.target ≠ .assessment) :
    EditStep s held e (settle held e (s.perform held e r)) := by
  cases r with
  | placement t parent position =>
    have call := creation s held.id t parent position (e.newValues t)
    simp only [perform]
    generalize s.createEntity held.id t parent position (e.newValues t) = r at call
    cases call with
    | refused fault => exact .left (settleFailing held e fault s).1 (settleFailing held e fault s).2
    | done answer found parented built => exact .created addressed found parented built rfl
  | ordering t parent ids =>
    have call := reordering s held.id t parent ids
    simp only [perform]
    generalize s.reorderEntities held.id t parent ids = r at call
    cases call with
    | refused fault => exact .left (settleFailing held e fault s).1 (settleFailing held e fault s).2
    | done found moved => exact .reordered addressed found moved rfl
  | entity t y =>
    simp only [perform]
    split
    · have call := deletion s held.id t y.id (deletePolicy held.kind t)
      generalize s.deleteEntity held.id t y.id (deletePolicy held.kind t) = r at call
      cases call with
      | refused fault => exact .left (settleFailing held e fault s).1 (settleFailing held e fault s).2
      | done found removed => exact .deleted addressed found removed rfl
    · rename_i kept
      exact updateStep addressed (by simp [Edit.updates?, plain, kept])

theorem assessStep {t : EntityType} {y : Entity} {v : Value} (addressed : held.resolve e = .ok (.entity t y))
    (rates : e.target = .assessment) (given : e.newRating? = some v) :
    EditStep s held e (settle held e (s.assess held e t y v)) :=
  updateStep addressed (by simp [Edit.updates?, rates, given])

theorem EditStep.ofNote {n : Notice} {r : Except Abort EditOutcome × Store} (step : EditStep (s.note n) held e r) :
    EditStep s held e r := by
  cases step with
  | left failing same => exact .left failing same
  | created addressed found parented built same => exact .created addressed found parented built same
  | updated addressed set found member patched same => exact .updated addressed set found member patched same
  | partway failing addressed set found member stopped same =>
    exact .partway failing addressed set found member stopped same
  | deleted addressed found removed same => exact .deleted addressed found removed same
  | reordered addressed found moved same => exact .reordered addressed found moved same

theorem applyEditStep (s : Store) (held : Document) (e : Edit) : EditStep s held e (s.applyEdit held e) := by
  refine EditStep.ofNote (n := .applying held.id e.intent e.target) ?_
  unfold applyEdit
  dsimp only
  split
  · exact .left (failingFault e _) rfl
  · rename_i r addressed
    split
    · rename_i rates
      split
      · exact .left (failingAbort _) rfl
      · rename_i given
        exact assessStep addressed rates given
    · rename_i other
      refine performStep addressed fun rates => ?_
      obtain ⟨t, x, entity⟩ := assessedEntity rates addressed
      exact other t x rates entity

end Store
end SafetyCase
