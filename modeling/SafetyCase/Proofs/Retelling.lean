import Mathlib
import SafetyCase.Proofs.Effects
import SafetyCase.Proofs.Marks
/-! What a hazard holds after a write of the store. Unless the write updates this very hazard, the hazard holds what it
held before, whatever becomes of the rest of the tree; and no write brings a hazard back that is not there. -/
namespace SafetyCase

namespace Document

variable {d d' : Document} {t : EntityType} {hazard : Identifier} {changes : List (String × Value)} {n : Nat}

/-- A hazard that is there after a change was there before, and holds what changes of its fields make of it. -/
def Retells (hazard : Identifier) (changes : List (String × Value)) (d d' : Document) : Prop :=
  ∀ x', d'.find? .hazard hazard = some x' →
    ∃ x, d.find? .hazard hazard = some x ∧ x'.attributes = (x.patch .hazard changes).1.attributes

theorem findMember (distinct : d.Distinct) {x : Entity} (inside : x ∈ d.collection t) : d.find? t x.id = some x := by
  obtain ⟨y, found⟩ := findInside inside
  rw [found, findOwn distinct inside found]

theorem retellsOrigin (distinct : d.Distinct) (origin : ∀ y ∈ d'.collection .hazard, y.id = hazard →
    ∃ x ∈ d.collection .hazard, x.unplaced = y.unplaced) : Retells hazard [] d d' := by
  intro y found
  have named : y.id = hazard := by simpa using List.find?_some found
  obtain ⟨x, inside, like⟩ := origin y (List.mem_of_find?_eq_some found) named
  obtain ⟨id, _, attributes⟩ := Entity.unplacedFields like
  exact ⟨x, by rw [← named, ← id, findMember distinct inside], attributes.symm⟩

theorem retellsSame (same : d'.collection .hazard = d.collection .hazard) : Retells hazard [] d d' := by
  intro x found
  rw [find?, same] at found
  exact ⟨x, found, rfl⟩

theorem retellsInsert (distinct : d.Distinct) {e : Entity} (other : e.id ≠ hazard) (position : Option Int) :
    Retells hazard [] d (d.insert t e position) := by
  obtain ⟨i, _, same⟩ := insertAsInserted d t e position
  rw [same]
  by_cases own : EntityType.hazard = t
  · subst own
    refine retellsOrigin distinct fun y inside named => ?_
    rw [collectionSetOwn] at inside
    obtain ⟨x, before, like⟩ := memRenumber inside
    rcases List.mem_append.mp before with old | new
    · exact ⟨x, old, like⟩
    · rw [List.mem_singleton.mp new] at like
      exact absurd ((Entity.unplacedFields like).1.trans named) other
  · exact retellsSame (collectionSetOther d _ own)

theorem retellsRemove (distinct : d.Distinct) {k : Kind} {id : Identifier} {policy : DeletePolicy}
    {out : List Entity × Document} (done : d.remove k t id policy = .ok out) : Retells hazard [] d out.2 := by
  rw [removeResult done]
  exact retellsOrigin distinct fun y inside _ => (removeTreePruned k (k.height t) t d id).origin inside

theorem retellsReorder (distinct : d.Distinct) {parent : Option Identifier} {ids : List Identifier}
    (done : d.reorder t parent ids = .ok d') : Retells hazard [] d d' := by
  rw [(reorderResult done).result]
  by_cases own : EntityType.hazard = t
  · subst own
    refine retellsOrigin distinct fun y inside _ => ?_
    rw [collectionSetOwn] at inside
    exact memRenumber inside
  · exact retellsSame (collectionSetOther d _ own)

theorem findModified {key : Identifier} {y : Entity} (named : y.id = key) (es : List Entity) :
    (modifyFirst (·.id = key) (fun _ => y) es).find? (·.id = hazard) =
      if hazard = key then (es.find? (·.id = hazard)).map fun _ => y else es.find? (·.id = hazard) := by
  induction es with
  | nil => simp [modifyFirst]
  | cons x rest ih =>
    by_cases here : x.id = key
    · by_cases own : hazard = key
      · simp [modifyFirst, here, own, named]
      · have other : ¬key = hazard := fun same => own same.symm
        simp [modifyFirst, here, own, named, other]
    · simp only [modifyFirst, here, decide_false, Bool.false_eq_true, if_false, List.find?_cons, ih]
      by_cases own : hazard = key
      · have other : ¬x.id = hazard := fun same => here (same.trans own)
        simp [own, here]
      · by_cases hit : x.id = hazard <;> simp [own, hit]

theorem retellsModify {key : Identifier} {x : Entity} (member : d.find? t key = some x) :
    Retells hazard (if t = .hazard ∧ key = hazard then changes else []) d
      (d.modifyEntity t key fun _ => (x.patch t changes).1) := by
  have named : (x.patch t changes).1.id = key := by
    rw [Entity.idPatch]
    simpa using List.find?_some member
  by_cases own : EntityType.hazard = t
  · subst own
    intro y found
    rw [find?, modifyEntity, collectionSetOwn, findModified named] at found
    by_cases addressed : hazard = key
    · subst addressed
      rw [if_pos rfl, show (d.collection .hazard).find? (·.id = hazard) = some x from member, Option.map_some,
        Option.some.injEq] at found
      exact ⟨x, member, by simp [found]⟩
    · rw [if_neg addressed] at found
      exact ⟨y, found, by simp [Ne.symm addressed, Entity.patch]⟩
  · rw [if_neg fun both => own both.1.symm]
    exact retellsSame (collectionSetOther d _ own)

end Document

def Write.sets (id hazard : Identifier) : Write → List (String × Value)
  | .update i .hazard x changes => if i = id ∧ x = hazard then changes else []
  | _ => []

theorem Write.setsUpdate (i id entity hazard : Identifier) (t : EntityType) (changes : List (String × Value)) :
    (Write.update i t entity changes).sets id hazard =
      if i = id then if t = .hazard ∧ entity = hazard then changes else [] else [] := by
  cases t <;> simp [sets, ← ite_and]

namespace Store

variable {s : Store} {id hazard : Identifier} {w : Write} {changes : List (String × Value)} {x' : Entity}

def hazard? (s : Store) (id hazard : Identifier) : Option Entity := (s.find? id).bind (·.find? .hazard hazard)

def Retells (id hazard : Identifier) (changes : List (String × Value)) (s s' : Store) : Prop :=
  ∀ x', s'.hazard? id hazard = some x' →
    ∃ x, s.hazard? id hazard = some x ∧ x'.attributes = (x.patch .hazard changes).1.attributes

theorem retellsSame {s' : Store} (same : s'.cases = s.cases) : Retells id hazard [] s s' := by
  intro x' after
  rw [hazard?, findSame same] at after
  exact ⟨x', after, rfl⟩

theorem retellsPut {before : Store} {i : Identifier} {d d' : Document} (found : s.find? i = some d)
    (cases : before.cases = s.cases) (named : d'.id = d.id) (others : i ≠ id → changes = [])
    (retells : i = id → Document.Retells hazard changes d d') :
    Retells id hazard changes s (before.put d') := by
  have own : d'.id = i := named.trans (foundStored found).2
  intro x' after
  by_cases here : i = id
  · subst here
    have lands := findPutSame before d'
    rw [own] at lands
    rw [hazard?, lands, Option.bind_some] at after
    obtain ⟨x, present, holds⟩ := retells rfl x' after
    exact ⟨x, by rw [hazard?, found, Option.bind_some, present], holds⟩
  · rw [others here]
    have same : (before.put d').find? id = s.find? id := by
      rw [findPutOther before d' (by rw [own]; exact fun same => here same.symm), findSame cases]
    rw [hazard?, same] at after
    exact ⟨x', after, rfl⟩

theorem updateRetells {i entity : Identifier} {t : EntityType} (whole : (Write.update i t entity changes).Whole) :
    Retells id hazard ((Write.update i t entity changes).sets id hazard) s (s.write (.update i t entity changes)).2 := by
  rw [Write.setsUpdate]
  cases answer : (s.write (.update i t entity changes)).1 with
  | error fault =>
    rw [wholeRefused whole answer]
    intro x' after
    refine ⟨x', after, ?_⟩
    by_cases own : i = id ∧ t = .hazard ∧ entity = hazard
    · obtain ⟨rfl, rfl, rfl⟩ := own
      obtain ⟨d, found, member⟩ := Option.bind_eq_some_iff.mp after
      have goes := (updateGoes found changes).mpr ⟨x', member, Entity.patchEnds whole x'⟩
      rw [answer] at goes
      contradiction
    · rw [← ite_and, if_neg own]
      rfl
  | ok =>
    have call := update s i t entity changes
    simp only [write, unanswered] at answer ⊢
    generalize s.updateEntity i t entity changes = r at call answer
    cases call with
    | refused | partway => contradiction
    | @done d x found member =>
      change Retells id hazard _ s (s.put { d.modifyEntity t entity fun _ => (x.patch t changes).1 with updatedAt := s.now })
      refine retellsPut found rfl (Document.idSetCollection d t _) (fun other => if_neg other) fun own => ?_
      rw [if_pos own]
      exact Document.retellsModify member

theorem writeRetells (all : s.All Document.Rooted) (whole : w.Whole) (partly : ∀ d, w ≠ .replace d)
    (old : s.freshId ≠ hazard) : Retells id hazard (w.sets id hazard) s (s.write w).2 := by
  have distinct {i : Identifier} {d : Document} (found : s.find? i = some d) : d.Distinct :=
    (all d (foundStored found).1).toRegular.toOrdered.distinct
  have saved {before : Store} {i : Identifier} {d d' : Document} (found : s.find? i = some d)
      (cases : before.cases = s.cases) (named : d'.id = d.id) (retells : Document.Retells hazard [] d d') :
      Retells id hazard [] s (before.save d') := by
    change Retells id hazard [] s (before.put { d' with updatedAt := before.now })
    exact retellsPut found cases named (fun _ => rfl) fun _ => retells
  cases w with
  | update => exact updateRetells whole
  | replace d => exact absurd rfl (partly d)
  | create i t parent position data =>
    have call := creation s i t parent position data
    simp only [write, unanswered]
    generalize s.createEntity i t parent position data = r at call
    cases call with
    | refused => exact retellsSame rfl
    | @done d e answer found _ built =>
      exact saved found rfl (Document.idSetCollection d t _)
        (Document.retellsInsert (distinct found) (by rwa [Entity.idBuild built]) position)
  | delete i t entity policy =>
    have call := deletion s i t entity policy
    simp only [write, unanswered]
    generalize s.deleteEntity i t entity policy = r at call
    cases call with
    | refused => exact retellsSame rfl
    | done found removed =>
      exact saved found rfl (Document.continuesRemove removed).id (Document.retellsRemove (distinct found) removed)
  | reorder i t parent ids =>
    have call := reordering s i t parent ids
    simp only [write, unanswered]
    generalize s.reorderEntities i t parent ids = r at call
    cases call with
    | refused => exact retellsSame rfl
    | done found moved =>
      exact saved found rfl (Document.continuesReorder moved).id (Document.retellsReorder (distinct found) moved)
  | rephase i phase =>
    have call := phaseChange s i phase
    simp only [write, unanswered]
    generalize s.setPhase i phase = r at call
    cases call with
    | refused => exact retellsSame rfl
    | done found => exact retellsPut found rfl rfl (fun _ => rfl) fun _ => Document.retellsSame rfl

end Store
end SafetyCase
