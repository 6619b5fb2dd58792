import SafetyCase.Proofs.Operations
/-! What an operation leaves alone: every case but the one that the editor holds, and of that case the kind and
the moment of its creation. -/
namespace SafetyCase

structure Document.Continues (c d : Document) : Prop where
  id : d.id = c.id
  kind : d.kind = c.kind
  created : d.createdAt = c.createdAt

namespace Document

variable {c d d' : Document} {t : EntityType}

theorem Continues.refl (d : Document) : d.Continues d := ⟨rfl, rfl, rfl⟩

theorem Continues.trans (first : c.Continues d) (second : d.Continues d') : c.Continues d' :=
  ⟨second.id.trans first.id, second.kind.trans first.kind, second.created.trans first.created⟩

theorem continuesHeader (header : d'.header = d.header) : d.Continues d' := by
  refine ⟨?_, kindOfHeader header, ?_⟩
  · change d'.header.id = d.header.id
    rw [header]
  · change d'.header.createdAt = d.header.createdAt
    rw [header]

theorem continuesRemove {k : Kind} {id : Identifier} {policy : DeletePolicy} {out : List Entity × Document}
    (done : d.remove k t id policy = .ok out) : d.Continues out.2 :=
  continuesHeader (removeHeader done)

theorem continuesReorder {parent : Option Identifier} {ids : List Identifier} (done : d.reorder t parent ids = .ok d') :
    d.Continues d' := continuesHeader (reorderHeader done)

end Document

namespace Store

theorem findSame {s s' : Store} (same : s'.cases = s.cases) (id : Identifier) : s'.find? id = s.find? id := by
  rw [find?, find?, same]

theorem savedFound {s before : Store} {id : Identifier} {d d' : Document} (found : s.find? id = some d)
    (header : d'.header = d.header) (moment : before.now = s.now) :
    (before.save d').find? id = some { d' with updatedAt := s.now } := by
  rw [← (foundStored found).2, ← (Document.continuesHeader header).id, ← moment]
  exact findPutSame before { d' with updatedAt := before.now }

/-- One store is the other with the case of an identifier taken on. -/
structure Touches (id : Identifier) (s s' : Store) : Prop where
  others : ∀ other, other ≠ id → s'.find? other = s.find? other
  itself : ∀ c, s.find? id = some c → ∃ d, s'.find? id = some d ∧ c.Continues d

namespace Touches

variable {id : Identifier} {s s' s'' : Store} {c d : Document}

theorem refl (id : Identifier) (s : Store) : Touches id s s := ⟨fun _ _ => rfl, fun c found => ⟨c, found, .refl c⟩⟩

theorem trans (first : Touches id s s') (second : Touches id s' s'') : Touches id s s'' := by
  refine ⟨fun other apart => (second.others other apart).trans (first.others other apart), fun c found => ?_⟩
  obtain ⟨d, found, one⟩ := first.itself c found
  obtain ⟨e, found, two⟩ := second.itself d found
  exact ⟨e, found, one.trans two⟩

theorem sameCases (same : s'.cases = s.cases) : Touches id s s' :=
  ⟨fun other _ => findSame same other, fun c here => ⟨c, (findSame same id).trans here, .refl c⟩⟩

theorem put (found : s.find? id = some c) (on : c.Continues d) : Touches id s (s.put d) := by
  have named : d.id = id := on.id.trans (foundStored found).2
  refine ⟨fun other apart => findPutOther s d (named ▸ apart), fun b here => ?_⟩
  cases found.symm.trans here
  exact ⟨d, named ▸ findPutSame s d, on⟩

theorem save (found : s.find? id = some c) (on : c.Continues d) : Touches id s (s.save d) :=
  put found ⟨on.id, on.kind, on.created⟩

theorem quiet (touches : Touches id s s') (same : s''.quiet = s'.quiet) : Touches id s s'' :=
  touches.trans (sameCases (casesOfQuiet same))

end Touches

variable {s : Store} {held : Document} {e : Edit}

theorem editTouches {r : Except Abort EditOutcome × Store} (step : EditStep s held e r) :
    Touches held.id s r.2 := by
  have modified {d : Document} {t : EntityType} {key : Identifier} {f : Entity → Entity} :
      d.Continues (d.modifyEntity t key f) := Document.continuesHeader (Document.headerSet d t _)
  cases step with
  | left _ same => exact .sameCases (casesOfQuiet same)
  | @created t _ position d x _ _ _ found _ _ same =>
    have on : d.Continues (d.insert t x position) := Document.continuesHeader (Document.headerSet d t _)
    have inserted := Touches.save (s := s.issue) found on
    exact ((Touches.sameCases (casesIssue s)).trans inserted).quiet same
  | updated _ _ found _ _ same => exact (Touches.save found modified).quiet same
  | partway _ _ _ found _ _ same => exact (Touches.put found modified).quiet same
  | deleted _ found removed same => exact (Touches.save found (Document.continuesRemove removed)).quiet same
  | reordered _ found moved same => exact (Touches.save found (Document.continuesReorder moved)).quiet same

theorem restoreTouches (s : Store) (d : Document) : Touches d.id s (s.replaceCase d).2 := by
  have call := replacement s d
  generalize s.replaceCase d = r at call
  cases call with
  | refused => exact .refl _ s
  | @done current found kind =>
    have on : current.Continues (s.restored d current) := ⟨(foundStored found).2.symm, kind, rfl⟩
    exact (Touches.put found on).trans (.sameCases rfl)

theorem phaseTouches (s : Store) (id : Identifier) (phase : String) : Touches id s (s.setPhase id phase).2 := by
  have call := phaseChange s id phase
  generalize s.setPhase id phase = r at call
  cases call with
  | refused => exact .refl _ s
  | @done d found _ => exact .put found ⟨rfl, rfl, rfl⟩

end Store

namespace Desk

def Holds (k : Desk) (id : Identifier) : Prop := ∃ d, k.session.document = some d ∧ d.id = id

structure Stays (id : Identifier) (k k' : Desk) : Prop where
  slot : k'.slot = k.slot
  holds : k'.Holds id
  touches : k.store.Touches id k'.store

variable {k k' : Desk} {id : Identifier}

theorem stageStays (holds : k.Holds id) (stage : Stage k k') : Stays id k k' := by
  have same {held : Document} (opened : k.session.document = some held) : held.id = id := by
    obtain ⟨d, here, named⟩ := holds
    cases opened.symm.trans here
    exact named
  cases stage with
  | noted n => exact ⟨rfl, holds, .sameCases rfl⟩
  | gated g => exact ⟨rfl, holds, .refl _ _⟩
  | @edited held e opened _ =>
    exact ⟨rfl, holds, same opened ▸ Store.editTouches (Store.applyEditStep k.store held e)⟩
  | @restored _ kept opened _ own =>
    exact ⟨rfl, holds, (own.trans (same opened)) ▸ Store.restoreTouches k.store kept.document⟩
  | rephased opened phase => exact ⟨rfl, holds, same opened ▸ Store.phaseTouches k.store _ phase⟩
  | reloaded opened read =>
    exact ⟨rfl, ⟨_, rfl, (Store.foundStored (Store.getFound read)).2.trans (same opened)⟩, .refl _ _⟩

theorem stagesStay (holds : k.Holds id) (stages : Stages k k') : Stays id k k' := by
  induction stages with
  | refl => exact ⟨rfl, holds, .refl _ _⟩
  | tail _ stage ih =>
    have next := stageStays ih.holds stage
    exact ⟨next.slot.trans ih.slot, next.holds, ih.touches.trans next.touches⟩

end Desk
end SafetyCase
